import Mathlib.Data.Fintype.EquivFin
import NermalProxy.Config

/-! # The configured and the enforced filter

`Intended` is the filter that a configuration file describes; the tables that `DoConfig`
fills decide with `isAllowed`.  They agree unless the file globally names a list that was
not loaded, or configures a user under the reserved name of the global policy. -/

namespace NermalProxy.Config

open NermalProxy.CString NermalProxy.KeyedList NermalProxy.ConfigFile
open NermalProxy.BlacklistList NermalProxy.UserPolicyList

/-! ## What the configuration says -/

section Intention

variable (files : Files) (config : ConfigData)

def authEnabled : Prop :=
  ((config.findSection (bytes "Proxy")).getAttribute (bytes "auth")).getValue = enabled

instance : Decidable (authEnabled config) := inferInstanceAs (Decidable (_ = _))

def Configured (user : Bytes) : Prop :=
  ∃ attr ∈ (config.findSection (bytes "UserAuth")).attributes, attr.name = user

instance (user : Bytes) : Decidable (Configured config user) :=
  inferInstanceAs (Decidable (∃ attr ∈ _, _))

def domainsOf (user : Bytes) : List Bytes :=
  ((config.findSection user).getAttribute (bytes "domains")).values

def globalDomains : List Bytes :=
  ((config.findSection (bytes "Proxy")).getAttribute (bytes "global_domains")).values

/-- The list of this name was loaded, with these lines. -/
def Loaded (name : Bytes) (lines : List Bytes) : Prop :=
  ∃ attr ∈ (config.findSection (bytes "DomainFiles")).attributes, attr.name = name ∧
    ∃ content, files attr.getValue = some content ∧ lines = (getlines content).map Blacklist.lineEntry

/-- The host is on a loaded list that one of the names denotes. -/
def Blocks (names : List Bytes) (host : Bytes) : Prop :=
  ∃ name ∈ names, ∃ lines, Loaded files config name lines ∧ host ∈ lines

/-- The configured filter. -/
def Intended (user host : Bytes) : Prop :=
  ¬ (Blocks files config (globalDomains config) host ∨
    (authEnabled config ∧ Configured config user ∧ Blocks files config (domainsOf config user) host))

end Intention

/-! ## Lists -/

section Lists

variable {files : Files} {config : ConfigData} {name host : Bytes} {lines : List Bytes}

def loadedLists (files : Files) (config : ConfigData) : List Blacklist :=
  loadBlacklists files (config.findSection (bytes "DomainFiles"))

theorem loadFromFile_eq_some {content : Option Bytes} {list : Blacklist} :
    Blacklist.loadFromFile name content = some list ↔
      ∃ text, content = some text ∧ list = ⟨name, (getlines text).map Blacklist.lineEntry⟩ := by
  cases content with
  | none => simp [Blacklist.loadFromFile]
  | some text => simp [Blacklist.loadFromFile, eq_comm]

/-- Each list keeps the name of its attribute, so the names stay distinct. -/
theorem loadBlacklists_names (files : Files) (domainConfig : ConfigSection) :
    ((loadBlacklists files domainConfig).map Blacklist.name).Nodup := by
  have sublist : ∀ attributes : List MultiValueAttribute,
      ((attributes.filterMap (loadDomain files)).map Blacklist.name).Sublist
        (attributes.map MultiValueAttribute.name) := by
    intro attributes
    induction attributes with
    | nil => exact List.Sublist.slnil
    | cons attr attributes inductionHypothesis =>
      cases opened : loadDomain files attr with
      | none =>
        rw [List.filterMap_cons_none opened]
        exact inductionHypothesis.cons _
      | some list =>
        obtain ⟨text, _, rfl⟩ := loadFromFile_eq_some.mp opened
        rw [List.filterMap_cons_some opened]
        exact inductionHypothesis.cons_cons _
  exact (sublist _).nodup domainConfig.distinct

/-- A search finds a list by name exactly when that list was loaded. -/
theorem loaded_iff_lookup :
    Loaded files config name lines ↔
      lookup Blacklist.name name (loadedLists files config) = some ⟨name, lines⟩ := by
  constructor
  · rintro ⟨attr, member, rfl, content, opened, rfl⟩
    have listed : (⟨attr.name, (getlines content).map Blacklist.lineEntry⟩ : Blacklist) ∈
        loadedLists files config :=
      List.mem_filterMap.mpr ⟨attr, member, loadFromFile_eq_some.mpr ⟨content, opened, rfl⟩⟩
    exact lookup_of_mem (loadBlacklists_names _ _) listed
  · intro found
    obtain ⟨attr, member, opened⟩ := List.mem_filterMap.mp (mem_of_lookup found)
    obtain ⟨content, readable, same⟩ := loadFromFile_eq_some.mp opened
    simp only [Blacklist.mk.injEq] at same
    exact ⟨attr, member, same.1.symm, content, readable, same.2⟩

theorem lookup_loaded {list : Blacklist}
    (found : lookup Blacklist.name name (loadedLists files config) = some list) :
    Loaded files config name list.blacklist := by
  rw [loaded_iff_lookup, found, ← key_of_lookup found]

theorem hasList_loaded :
    hasList (loadedLists files config) name = true ↔ ∃ lines, Loaded files config name lines := by
  rw [hasList_iff]
  constructor
  · rintro ⟨list, found⟩
    exact ⟨list.blacklist, lookup_loaded found⟩
  · rintro ⟨lines, loaded⟩
    exact ⟨_, loaded_iff_lookup.mp loaded⟩

theorem isAllowedInList_loaded :
    isAllowedInList (loadedLists files config) name host = true ↔
      ∃ lines, Loaded files config name lines ∧ host ∉ lines := by
  rw [isAllowedInList_iff]
  constructor
  · rintro ⟨list, found, absent⟩
    exact ⟨list.blacklist, lookup_loaded found, absent⟩
  · rintro ⟨lines, loaded, absent⟩
    exact ⟨_, loaded_iff_lookup.mp loaded, absent⟩

theorem Loaded.unique {more : List Bytes} (loaded : Loaded files config name lines)
    (again : Loaded files config name more) : lines = more := by
  have found := loaded_iff_lookup.mp loaded
  rw [loaded_iff_lookup.mp again] at found
  simpa using found.symm

/-- The loop over names of which every one is loaded. -/
theorem all_allowed_iff {names : List Bytes} :
    (∀ name ∈ names, isAllowedInList (loadedLists files config) name host = true) ↔
      (∀ name ∈ names, ∃ lines, Loaded files config name lines) ∧ ¬ Blocks files config names host := by
  simp only [isAllowedInList_loaded]
  constructor
  · intro allowed
    refine ⟨fun name member => ?_, ?_⟩
    · obtain ⟨lines, loaded, _⟩ := allowed name member
      exact ⟨lines, loaded⟩
    · rintro ⟨name, member, lines, loaded, listed⟩
      obtain ⟨others, again, absent⟩ := allowed name member
      rw [again.unique loaded] at absent
      exact absent listed
  · rintro ⟨loaded, unblocked⟩ name member
    obtain ⟨lines, isLoaded⟩ := loaded name member
    exact ⟨lines, isLoaded, fun listed => unblocked ⟨name, member, lines, isLoaded, listed⟩⟩

/-- The loop over names from which `HasList` has dropped the others. -/
theorem filtered_allowed_iff {names : List Bytes} :
    (∀ name ∈ names.filter (hasList (loadedLists files config)),
      isAllowedInList (loadedLists files config) name host = true) ↔
      ¬ Blocks files config names host := by
  rw [all_allowed_iff]
  constructor
  · rintro ⟨_, unblocked⟩ ⟨name, member, lines, loaded, listed⟩
    have kept : name ∈ names.filter (hasList (loadedLists files config)) :=
      List.mem_filter.mpr ⟨member, hasList_loaded.mpr ⟨lines, loaded⟩⟩
    exact unblocked ⟨name, kept, lines, loaded, listed⟩
  · intro unblocked
    constructor
    · intro name member
      exact hasList_loaded.mp (List.mem_filter.mp member).2
    · rintro ⟨name, member, lines, loaded, listed⟩
      exact unblocked ⟨name, (List.mem_filter.mp member).1, lines, loaded, listed⟩

/-- No configuration blocks every host. -/
theorem exists_unblocked (files : Files) (config : ConfigData) :
    ∃ host, ∀ names, ¬ Blocks files config names host := by
  obtain ⟨host, fresh⟩ := Infinite.exists_notMem_finset
    ((loadedLists files config).flatMap Blacklist.blacklist).toFinset
  refine ⟨host, fun names blocked => fresh ?_⟩
  obtain ⟨name, _, lines, loaded, listed⟩ := blocked
  rw [List.mem_toFinset, List.mem_flatMap]
  exact ⟨_, mem_of_lookup (loaded_iff_lookup.mp loaded), listed⟩

end Lists

/-! ## Policies -/

section Policies

variable {files : Files} {stale : Nat → Bytes × Bytes} {filename : Bytes} {settings : Settings}

theorem doConfig_blacklists (configured : doConfig files stale filename = some settings) :
    settings.blacklists = loadedLists files (loadData stale (files filename)) := by
  simp only [doConfig] at configured
  split at configured
  · cases configured
  · cases configured
    rfl

theorem lookup_userPolicies (config : ConfigData) (blacklists : List Blacklist) (user : Bytes)
    (authData : List MultiValueAttribute) :
    lookup UserPolicy.name user (authData.map (fun attr => userPolicy config blacklists attr.name)) =
      if ∃ attr ∈ authData, attr.name = user then some (userPolicy config blacklists user) else none := by
  induction authData with
  | nil => rfl
  | cons attr authData inductionHypothesis =>
    rw [List.map_cons, lookup_cons, inductionHypothesis]
    by_cases same : attr.name = user
    · simp [userPolicy, same]
    · simp [userPolicy, same]

/-- The global policy is the last one, so any policy of its name comes before it. -/
theorem userDomains_append_global (policies : List UserPolicy) (proxyConfig : ConfigSection)
    (user : Bytes) :
    userDomains (policies ++ [globalPolicy proxyConfig]) user =
      match lookup UserPolicy.name user policies with
      | some policy => policy.domains
      | none => if user = globalDomain then (globalPolicy proxyConfig).domains else [] := by
  unfold userDomains
  rw [lookup_append]
  cases lookup UserPolicy.name user policies with
  | some policy => rfl
  | none =>
    by_cases reserved : user = globalDomain
    · simp [lookup_cons, globalPolicy, reserved]
    · have other : ¬ globalDomain = user := fun same => reserved same.symm
      simp [lookup_cons, globalPolicy, reserved, other]

/-- The first policy of a name: that of a configured user, else the global one. -/
theorem doConfig_userDomains (configured : doConfig files stale filename = some settings)
    (user : Bytes) :
    userDomains settings.policies user =
      if authEnabled (loadData stale (files filename)) ∧
          Configured (loadData stale (files filename)) user then
        (domainsOf (loadData stale (files filename)) user).filter
          (hasList (loadedLists files (loadData stale (files filename))))
      else if user = globalDomain then globalDomains (loadData stale (files filename))
      else [] := by
  simp only [doConfig] at configured
  split at configured
  · cases configured
  · cases configured
    simp only [userDomains_append_global]
    by_cases auth : authEnabled (loadData stale (files filename))
    · have table := lookup_userPolicies (loadData stale (files filename))
        (loadedLists files (loadData stale (files filename))) user
        ((loadData stale (files filename)).findSection (bytes "UserAuth")).attributes
      unfold loadedLists at table
      have isEnabled := auth
      unfold authEnabled at isEnabled
      rw [if_pos isEnabled, table]
      by_cases present : Configured (loadData stale (files filename)) user
      · have listed := present
        unfold Configured at listed
        have both : authEnabled (loadData stale (files filename)) ∧
            Configured (loadData stale (files filename)) user := ⟨auth, present⟩
        rw [if_pos listed, if_pos both]
        rfl
      · have unlisted := present
        unfold Configured at unlisted
        have notBoth : ¬ (authEnabled (loadData stale (files filename)) ∧
            Configured (loadData stale (files filename)) user) := fun both => present both.2
        rw [if_neg unlisted, if_neg notBoth]
        rfl
    · have isDisabled := auth
      unfold authEnabled at isDisabled
      have neither : ¬ (authEnabled (loadData stale (files filename)) ∧
          Configured (loadData stale (files filename)) user) := fun both => auth both.1
      rw [if_neg isDisabled, if_neg neither]
      rfl

/-- The loop over the domains of one user. -/
theorem userDomains_allow (configured : doConfig files stale filename = some settings)
    (user host : Bytes) :
    (∀ name ∈ userDomains settings.policies user,
      isAllowedInList settings.blacklists name host = true) ↔
      if authEnabled (loadData stale (files filename)) ∧
          Configured (loadData stale (files filename)) user then
        ¬ Blocks files (loadData stale (files filename))
          (domainsOf (loadData stale (files filename)) user) host
      else user = globalDomain →
        (∀ name ∈ globalDomains (loadData stale (files filename)),
          ∃ lines, Loaded files (loadData stale (files filename)) name lines) ∧
        ¬ Blocks files (loadData stale (files filename))
          (globalDomains (loadData stale (files filename))) host := by
  rw [doConfig_userDomains configured, doConfig_blacklists configured]
  split
  · exact filtered_allowed_iff
  · by_cases reserved : user = globalDomain
    · rw [if_pos reserved, all_allowed_iff]
      simp [reserved]
    · simp [reserved]

end Policies

/-! ## Agreement -/

/-- The condition under which the enforced filter is the configured one. -/
def Agrees (files : Files) (config : ConfigData) : Prop :=
  if authEnabled config ∧ Configured config globalDomain then
    ∀ host, Blocks files config (domainsOf config globalDomain) host ↔
      Blocks files config (globalDomains config) host
  else ∀ name ∈ globalDomains config, ∃ lines, Loaded files config name lines

theorem exists_unconfigured (config : ConfigData) : ∃ user, ¬ Configured config user := by
  obtain ⟨user, fresh⟩ := Infinite.exists_notMem_finset
    ((config.findSection (bytes "UserAuth")).attributes.map MultiValueAttribute.name).toFinset
  refine ⟨user, ?_⟩
  rintro ⟨attr, member, rfl⟩
  exact fresh (List.mem_toFinset.mpr (List.mem_map_of_mem member))

/-- The enforced filter is the configured one for every user and host exactly when a user under
the global policy's name blocks the same hosts, or every globally named list was loaded. -/
theorem filter_enforced_iff {files : Files} {stale : Nat → Bytes × Bytes} {filename : Bytes}
    {settings : Settings} (configured : doConfig files stale filename = some settings) :
    (∀ user host, isAllowed settings.blacklists settings.policies user host = true ↔
      Intended files (loadData stale (files filename)) user host) ↔
    Agrees files (loadData stale (files filename)) := by
  simp only [isAllowed_iff, userDomains_allow configured, Intended]
  generalize loadData stale (files filename) = config
  unfold Agrees
  by_cases shadowed : authEnabled config ∧ Configured config globalDomain
  · simp only [if_pos shadowed]
    constructor
    · intro enforced host
      obtain ⟨user, unconfigured⟩ := exists_unconfigured config
      have notGlobal : user ≠ globalDomain := by
        rintro rfl
        exact unconfigured shadowed.2
      have decision := enforced user host
      simp only [unconfigured, and_false, if_false, notGlobal, false_implies, true_and, false_and,
        or_false] at decision
      exact not_iff_not.mp decision
    · intro same user host
      rw [same host]
      by_cases isConfigured : authEnabled config ∧ Configured config user
      · rw [if_pos isConfigured]
        simp only [isConfigured.1, isConfigured.2, true_and]
        tauto
      · rw [if_neg isConfigured]
        have notGlobal : user ≠ globalDomain := by
          rintro rfl
          exact isConfigured shadowed
        simp only [notGlobal, false_implies, true_and]
        tauto
  · simp only [if_neg shadowed, true_implies]
    constructor
    · intro enforced
      obtain ⟨host, unblocked⟩ := exists_unblocked files config
      have intended : ¬ (Blocks files config (globalDomains config) host ∨
          authEnabled config ∧ Configured config globalDomain ∧
            Blocks files config (domainsOf config globalDomain) host) := by
        rintro (blocked | ⟨-, -, blocked⟩)
        · exact unblocked _ blocked
        · exact unblocked _ blocked
      exact ((enforced globalDomain host).mpr intended).2.1
    · intro loaded user host
      by_cases isConfigured : authEnabled config ∧ Configured config user
      · rw [if_pos isConfigured]
        simp only [isConfigured.1, isConfigured.2, true_and]
        tauto
      · rw [if_neg isConfigured]
        tauto

/-- A configuration that blocks one list for everybody, with or without the file of the list. -/
def adsFiles (listLoads : Bool) : Files := fun path =>
  if path = bytes "default.conf" then
    some (bytes "[Proxy]\nglobal_domains:ads\n[DomainFiles]\nads:ads.list\n")
  else if path = bytes "ads.list" ∧ listLoads = true then some (bytes "ads.example.com\n")
  else none

def adsSettings (listLoads : Bool) : Settings where
  serverPort := 10080
  authEnabled := false
  blacklists := if listLoads then [⟨bytes "ads", [bytes "ads.example.com"]⟩] else []
  users := []
  policies := [⟨globalDomain, [bytes "ads"]⟩]

theorem filter_enforced_iff_ads : ∃ settings,
    doConfig (adsFiles true) (fun _ => ([], [])) (bytes "default.conf") = some settings ∧
      ∀ user host, isAllowed settings.blacklists settings.policies user host = true ↔
        Intended (adsFiles true) (loadData (fun _ => ([], [])) (adsFiles true (bytes "default.conf")))
          user host := by
  have configured : doConfig (adsFiles true) (fun _ => ([], [])) (bytes "default.conf") =
      some (adsSettings true) := by rfl
  refine ⟨adsSettings true, configured, (filter_enforced_iff configured).mpr ?_⟩
  have noAuth : ¬ authEnabled (loadData (fun _ => ([], [])) (adsFiles true (bytes "default.conf"))) := by
    decide
  unfold Agrees
  rw [if_neg (fun shadowed => noAuth shadowed.1)]
  intro name member
  have names : globalDomains (loadData (fun _ => ([], [])) (adsFiles true (bytes "default.conf"))) =
      [bytes "ads"] := by decide
  rw [names, List.mem_singleton] at member
  subst member
  exact ⟨[bytes "ads.example.com"], loaded_iff_lookup.mpr (by rfl)⟩

/-- A globally named list whose file does not open: every host is refused. -/
theorem unloaded_global_list_blocks_everything :
    ¬ ∀ files stale filename settings, doConfig files stale filename = some settings →
      ∀ user host, isAllowed settings.blacklists settings.policies user host = true ↔
        Intended files (loadData stale (files filename)) user host := by
  intro claim
  have configured : doConfig (adsFiles false) (fun _ => ([], [])) (bytes "default.conf") =
      some (adsSettings false) := by rfl
  have refused : isAllowed (adsSettings false).blacklists (adsSettings false).policies
      (bytes "user1") (bytes "example.org") = false := by decide
  have empty : loadedLists (adsFiles false)
      (loadData (fun _ => ([], [])) (adsFiles false (bytes "default.conf"))) = [] := by decide
  have intended : Intended (adsFiles false)
      (loadData (fun _ => ([], [])) (adsFiles false (bytes "default.conf")))
      (bytes "user1") (bytes "example.org") := by
    have unblocked : ∀ names, ¬ Blocks (adsFiles false)
        (loadData (fun _ => ([], [])) (adsFiles false (bytes "default.conf"))) names
        (bytes "example.org") := by
      rintro names ⟨name, -, lines, loaded, -⟩
      rw [loaded_iff_lookup, empty] at loaded
      cases loaded
    rintro (blocked | ⟨-, -, blocked⟩)
    · exact unblocked _ blocked
    · exact unblocked _ blocked
  have decision := (claim _ _ _ _ configured (bytes "user1") (bytes "example.org")).mpr intended
  rw [refused] at decision
  cases decision

end NermalProxy.Config
