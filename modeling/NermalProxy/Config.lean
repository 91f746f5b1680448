import NermalProxy.ConfigFile
import NermalProxy.Policy
import NermalProxy.UserAuth

/-! # `DoConfig`

The tables of the proxy as `DoConfig` fills them from a configuration file and the
files it names.  `files` gives the content of each path that `fopen` can open. -/

namespace NermalProxy.Config

open NermalProxy.CString NermalProxy.KeyedList NermalProxy.ConfigFile

abbrev Files := Bytes → Option Bytes

structure Settings where
  serverPort : UInt16
  authEnabled : Bool
  blacklists : List Blacklist
  users : List User
  policies : List UserPolicy

/-- `std::stoul`; `none` where it throws. -/
def stoul (text : Bytes) : Option Nat :=
  let (negative, unsigned) :=
    match skipSpace text with
    | 45 :: rest => (true, rest)
    | 43 :: rest => (false, rest)
    | rest => (false, rest)
  match unsigned.takeWhile isDigit with
  | [] => none
  | digits =>
    let value := digitsValue digits
    if value ≥ UInt64.size then none
    else some (if negative then (UInt64.size - value) % UInt64.size else value)

/-- The port, unless the conversion throws. -/
def serverPort (proxyConfig : ConfigSection) : Option UInt16 :=
  let value := (proxyConfig.getAttribute (bytes "port")).getValue
  if value ≠ [] then (stoul value).map UInt16.ofNat else some 10080

/-- The list of one attribute of `DomainFiles`, if its file opens. -/
def loadDomain (files : Files) (attr : MultiValueAttribute) : Option Blacklist :=
  Blacklist.loadFromFile attr.name (files attr.getValue)

def loadBlacklists (files : Files) (domainConfig : ConfigSection) : List Blacklist :=
  domainConfig.attributes.filterMap (loadDomain files)

def dayStrings : List Bytes :=
  [bytes "sun", bytes "mon", bytes "tue", bytes "wed", bytes "thr", bytes "fri", bytes "sat"]

def enabled : Bytes := bytes "enabled"

/-- The policy made of a user's `domains`. -/
def userPolicy (config : ConfigData) (blacklists : List Blacklist) (name : Bytes) : UserPolicy :=
  let domains := ((config.findSection name).getAttribute (bytes "domains")).values
  ⟨name, domains.filter (BlacklistList.hasList blacklists)⟩

def setSchedule (policyConfig : ConfigSection) (name : Bytes) (users : List User) (day : Bytes) :
    List User :=
  let access := (policyConfig.getAttribute day).getValue
  if access ≠ [] then (AuthManager.setWeeklyAccess users name day access).1 else users

/-- One turn of the loop over `UserAuth`, as far as it concerns the user table. -/
def configureUser (config : ConfigData) (users : List User) (attr : MultiValueAttribute) :
    List User :=
  let policyConfig := config.findSection attr.name
  let users := AuthManager.addUser users attr.name attr.getValue
  let users := (policyConfig.getAttribute (bytes "ip_list")).values.foldl
    (fun users ip => AuthManager.addUserIp users attr.name ip) users
  let users :=
    if (policyConfig.getAttribute (bytes "audit")).getValue = enabled then
      AuthManager.setAudit users attr.name true
    else users
  if (policyConfig.getAttribute (bytes "time_based_policy")).getValue = enabled then
    dayStrings.foldl (setSchedule policyConfig attr.name) users
  else users

/-- The global policy keeps every name of `global_domains`. -/
def globalPolicy (proxyConfig : ConfigSection) : UserPolicy :=
  ⟨globalDomain, (proxyConfig.getAttribute (bytes "global_domains")).values⟩

/-- `none` when the exception of `std::stoul` ends the program. -/
def doConfig (files : Files) (stale : Nat → Bytes × Bytes) (filename : Bytes) : Option Settings :=
  let config := loadData stale (files filename)
  let proxyConfig := config.findSection (bytes "Proxy")
  match serverPort proxyConfig with
  | none => none
  | some serverPort =>
    let authEnabled := (proxyConfig.getAttribute (bytes "auth")).getValue = enabled
    let blacklists := loadBlacklists files (config.findSection (bytes "DomainFiles"))
    let authData := (config.findSection (bytes "UserAuth")).attributes
    let users := if authEnabled then authData.foldl (configureUser config) [] else []
    -- a user without domains has a policy, too
    let userPolicies :=
      if authEnabled then authData.map (fun attr => userPolicy config blacklists attr.name) else []
    some { serverPort, authEnabled, blacklists, users, policies := userPolicies ++ [globalPolicy proxyConfig] }

end NermalProxy.Config
