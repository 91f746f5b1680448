import Mathlib.Data.Multiset.AddSub
import Mathlib.Data.Multiset.Filter
import Mathlib.Data.Multiset.UnionInter
import Mathlib.Logic.Relation
import NermalProxy.ClientSocket

/-! # Who owns a session

The abstract model behind the life cycle of sessions.  A live session is owned by one
token: a loose one, which a task or a message carries, or a pair of relay sockets.
Whoever has the token may hand it on or end the session.  Descriptors have one owner. -/

namespace NermalProxy

/-- One socket of a relay pair. -/
structure End where
  sessionId : Nat
  fd : Fd
  peerFd : Fd
  deriving DecidableEq, Repr

def End.mirror (e : End) : End := ⟨e.sessionId, e.peerFd, e.fd⟩

structure Ledger where
  nextId : Nat
  /-- The live sessions: id and client descriptor. -/
  sessions : Multiset (Nat × Fd)
  loose : Multiset Nat
  /-- The sockets towards the clients, and those towards the origins. -/
  clientEnds : Multiset End
  serverEnds : Multiset End
  /-- The origin descriptors that no socket owns yet. -/
  held : Multiset Fd
  /-- The descriptors that are never closed. -/
  fixed : Multiset Fd
  openFds : Multiset Fd

namespace Ledger

def ids (ledger : Ledger) : Multiset Nat := ledger.sessions.map Prod.fst

def tokens (ledger : Ledger) : Multiset Nat := ledger.loose + ledger.clientEnds.map End.sessionId

/-- Every descriptor with an owner. -/
def owned (ledger : Ledger) : Multiset Fd :=
  ledger.sessions.map Prod.snd + ledger.serverEnds.map End.fd + ledger.held + ledger.fixed

structure Sound (ledger : Ledger) : Prop where
  tokens_eq : ledger.tokens = ledger.ids
  ids_nodup : ledger.ids.Nodup
  ids_lt : ∀ id ∈ ledger.ids, id < ledger.nextId
  mirrored : ledger.clientEnds.map End.mirror = ledger.serverEnds
  linked : ∀ e ∈ ledger.clientEnds, (e.sessionId, e.fd) ∈ ledger.sessions
  owned_nodup : ledger.owned.Nodup
  owned_open : ∀ fd ∈ ledger.owned, fd ∈ ledger.openFds

inductive Step : Ledger → Ledger → Prop
  /-- An origin descriptor is given up without being closed. -/
  | leak {ledger : Ledger} {held : Multiset Fd} (fewer : held ≤ ledger.held) :
      Step ledger { ledger with held }
  | create {ledger : Ledger} {fd : Fd} (unused : fd ∉ ledger.openFds) :
      Step ledger { ledger with
        nextId := ledger.nextId + 1
        sessions := (ledger.nextId, fd) ::ₘ ledger.sessions
        loose := ledger.nextId ::ₘ ledger.loose
        openFds := fd ::ₘ ledger.openFds }
  | hold {ledger : Ledger} {fd : Fd} (unused : fd ∉ ledger.openFds) :
      Step ledger { ledger with
        held := fd ::ₘ ledger.held
        openFds := fd ::ₘ ledger.openFds }
  /-- Who has a loose token closes the client's descriptor and ends the session. -/
  | finish {ledger : Ledger} {id : Nat} {fd : Fd} {sessions : Multiset (Nat × Fd)}
      {loose : Multiset Nat} (session : ledger.sessions = (id, fd) ::ₘ sessions)
      (token : ledger.loose = id ::ₘ loose) :
      Step ledger { ledger with sessions, loose, openFds := ledger.openFds.erase fd }
  /-- The token becomes a pair of sockets. -/
  | link {ledger : Ledger} {id : Nat} {fd peerFd : Fd} {loose : Multiset Nat} {held : Multiset Fd}
      (session : (id, fd) ∈ ledger.sessions) (token : ledger.loose = id ::ₘ loose)
      (holds : ledger.held = peerFd ::ₘ held) :
      Step ledger { ledger with
        loose
        clientEnds := ⟨id, fd, peerFd⟩ ::ₘ ledger.clientEnds
        serverEnds := ⟨id, peerFd, fd⟩ ::ₘ ledger.serverEnds
        held }
  /-- Both sockets of a pair are closed and the session ends. -/
  | unlink {ledger : Ledger} {e : End} {sessions : Multiset (Nat × Fd)}
      {clientEnds serverEnds : Multiset End}
      (session : ledger.sessions = (e.sessionId, e.fd) ::ₘ sessions)
      (client : ledger.clientEnds = e ::ₘ clientEnds)
      (server : ledger.serverEnds = e.mirror ::ₘ serverEnds) :
      Step ledger { ledger with
        sessions
        clientEnds
        serverEnds
        openFds := (ledger.openFds.erase e.fd).erase e.peerFd }

variable {ledger next : Ledger}

theorem Sound.leak (sound : ledger.Sound) {held : Multiset Fd} (fewer : held ≤ ledger.held) :
    Sound { ledger with held } := by
  have owned_le : owned { ledger with held } ≤ ledger.owned :=
    Multiset.add_le_add_right (Multiset.add_le_add_left fewer)
  exact { sound with
    owned_nodup := Multiset.nodup_of_le owned_le sound.owned_nodup
    owned_open := fun fd member => sound.owned_open fd (Multiset.mem_of_le owned_le member) }

/-- A descriptor that was not open has no owner yet. -/
theorem Sound.unowned (sound : ledger.Sound) {fd : Fd} (unused : fd ∉ ledger.openFds) :
    (fd ::ₘ ledger.owned).Nodup ∧ ∀ other ∈ fd ::ₘ ledger.owned, other ∈ fd ::ₘ ledger.openFds := by
  constructor
  · exact Multiset.nodup_cons.mpr
      ⟨fun member => unused (sound.owned_open fd member), sound.owned_nodup⟩
  · intro other member
    rcases Multiset.mem_cons.mp member with rfl | older
    · exact Multiset.mem_cons_self _ _
    · exact Multiset.mem_cons_of_mem (sound.owned_open other older)

theorem Sound.create (sound : ledger.Sound) {fd : Fd} (unused : fd ∉ ledger.openFds) :
    Sound { ledger with
      nextId := ledger.nextId + 1
      sessions := (ledger.nextId, fd) ::ₘ ledger.sessions
      loose := ledger.nextId ::ₘ ledger.loose
      openFds := fd ::ₘ ledger.openFds } where
  tokens_eq := by
    have same := sound.tokens_eq
    simp only [tokens, ids] at same
    simp only [tokens, ids, Multiset.map_cons, Multiset.cons_add, same]
  ids_nodup := by
    have fresh : ledger.nextId ∉ ledger.ids := fun member => lt_irrefl _ (sound.ids_lt _ member)
    simpa [ids] using Multiset.nodup_cons.mpr ⟨fresh, sound.ids_nodup⟩
  ids_lt := by
    intro id member
    simp only [ids, Multiset.map_cons, Multiset.mem_cons] at member
    rcases member with rfl | older
    · exact Nat.lt_succ_self _
    · exact Nat.lt_succ_of_lt (sound.ids_lt id older)
  mirrored := sound.mirrored
  linked e member := Multiset.mem_cons_of_mem (sound.linked e member)
  owned_nodup := by simpa [owned] using (sound.unowned unused).1
  owned_open := by simpa [owned] using (sound.unowned unused).2

theorem Sound.hold (sound : ledger.Sound) {fd : Fd} (unused : fd ∉ ledger.openFds) :
    Sound { ledger with held := fd ::ₘ ledger.held, openFds := fd ::ₘ ledger.openFds } where
  tokens_eq := sound.tokens_eq
  ids_nodup := sound.ids_nodup
  ids_lt := sound.ids_lt
  mirrored := sound.mirrored
  linked := sound.linked
  owned_nodup := by simpa [owned] using (sound.unowned unused).1
  owned_open := by simpa [owned] using (sound.unowned unused).2

/-- Closing a descriptor together with its owner leaves the others open. -/
theorem still_open {owned openFds : Multiset Fd} {fd : Fd} (nodup : (fd ::ₘ owned).Nodup)
    (isOpen : ∀ other ∈ fd ::ₘ owned, other ∈ openFds) :
    ∀ other ∈ owned, other ∈ openFds.erase fd := by
  intro other member
  have different : other ≠ fd := by
    rintro rfl
    exact (Multiset.nodup_cons.mp nodup).1 member
  exact (Multiset.mem_erase_of_ne different).mpr (isOpen other (Multiset.mem_cons_of_mem member))

/-- The sessions without one whose only token was elsewhere keep their sockets. -/
theorem Sound.linked_erase (sound : ledger.Sound) {id : Nat} {fd : Fd}
    {sessions : Multiset (Nat × Fd)} (session : ledger.sessions = (id, fd) ::ₘ sessions) {e : End}
    (member : e ∈ ledger.clientEnds) (other : e.sessionId ≠ id) : (e.sessionId, e.fd) ∈ sessions := by
  have linked := sound.linked e member
  rw [session, Multiset.mem_cons] at linked
  rcases linked with same | linked
  · exact absurd (congrArg Prod.fst same) other
  · exact linked

theorem Sound.finish (sound : ledger.Sound) {id : Nat} {fd : Fd} {sessions : Multiset (Nat × Fd)}
    {loose : Multiset Nat} (session : ledger.sessions = (id, fd) ::ₘ sessions)
    (token : ledger.loose = id ::ₘ loose) :
    Sound { ledger with sessions, loose, openFds := ledger.openFds.erase fd } := by
  have ids_eq : ledger.ids = id ::ₘ sessions.map Prod.fst := by simp [ids, session]
  have tokens_eq : ledger.tokens = id ::ₘ (loose + ledger.clientEnds.map End.sessionId) := by
    simp [tokens, token]
  have same := sound.tokens_eq
  rw [ids_eq, tokens_eq, Multiset.cons_inj_right] at same
  have nodup := sound.ids_nodup
  rw [ids_eq] at nodup
  have owned_eq : ledger.owned =
      fd ::ₘ (sessions.map Prod.snd + ledger.serverEnds.map End.fd + ledger.held + ledger.fixed) := by
    simp [owned, session]
  have owned_nodup := sound.owned_nodup
  have owned_open := sound.owned_open
  rw [owned_eq] at owned_nodup owned_open
  constructor
  · exact same
  · exact (Multiset.nodup_cons.mp nodup).2
  · intro other member
    exact sound.ids_lt other (by rw [ids_eq]; exact Multiset.mem_cons_of_mem member)
  · exact sound.mirrored
  · intro e member
    refine sound.linked_erase session member ?_
    rintro rfl
    have inIds : e.sessionId ∈ sessions.map Prod.fst := by
      rw [← same]
      exact Multiset.mem_add.mpr (.inr (Multiset.mem_map_of_mem _ member))
    exact (Multiset.nodup_cons.mp nodup).1 inIds
  · exact (Multiset.nodup_cons.mp owned_nodup).2
  · exact still_open owned_nodup owned_open

theorem Sound.link (sound : ledger.Sound) {id : Nat} {fd peerFd : Fd} {loose : Multiset Nat}
    {held : Multiset Fd} (session : (id, fd) ∈ ledger.sessions) (token : ledger.loose = id ::ₘ loose)
    (holds : ledger.held = peerFd ::ₘ held) :
    Sound { ledger with
      loose
      clientEnds := ⟨id, fd, peerFd⟩ ::ₘ ledger.clientEnds
      serverEnds := ⟨id, peerFd, fd⟩ ::ₘ ledger.serverEnds
      held } := by
  have owned_eq : ledger.sessions.map Prod.snd + (peerFd ::ₘ ledger.serverEnds.map End.fd) + held +
      ledger.fixed = ledger.owned := by
    simp [owned, holds]
  constructor
  · have same := sound.tokens_eq
    simp only [tokens, token, ids] at same
    simp [tokens, ids, ← same]
  · exact sound.ids_nodup
  · exact sound.ids_lt
  · simp [End.mirror, ← sound.mirrored]
  · intro e member
    rcases Multiset.mem_cons.mp member with rfl | older
    · exact session
    · exact sound.linked e older
  · simpa only [owned, Multiset.map_cons, owned_eq] using sound.owned_nodup
  · simpa only [owned, Multiset.map_cons, owned_eq] using sound.owned_open

theorem Sound.unlink (sound : ledger.Sound) {e : End} {sessions : Multiset (Nat × Fd)}
    {clientEnds serverEnds : Multiset End}
    (session : ledger.sessions = (e.sessionId, e.fd) ::ₘ sessions)
    (client : ledger.clientEnds = e ::ₘ clientEnds)
    (server : ledger.serverEnds = e.mirror ::ₘ serverEnds) :
    Sound { ledger with
      sessions
      clientEnds
      serverEnds
      openFds := (ledger.openFds.erase e.fd).erase e.peerFd } := by
  have ids_eq : ledger.ids = e.sessionId ::ₘ sessions.map Prod.fst := by simp [ids, session]
  have tokens_eq : ledger.tokens =
      e.sessionId ::ₘ (ledger.loose + clientEnds.map End.sessionId) := by
    simp [tokens, client]
  have same := sound.tokens_eq
  rw [ids_eq, tokens_eq, Multiset.cons_inj_right] at same
  have nodup := sound.ids_nodup
  rw [ids_eq] at nodup
  have owned_eq : ledger.owned = e.fd ::ₘ e.peerFd ::ₘ
      (sessions.map Prod.snd + serverEnds.map End.fd + ledger.held + ledger.fixed) := by
    rw [Multiset.cons_swap]
    simp [owned, session, server, End.mirror]
  have owned_nodup := sound.owned_nodup
  have owned_open := sound.owned_open
  rw [owned_eq] at owned_nodup owned_open
  constructor
  · exact same
  · exact (Multiset.nodup_cons.mp nodup).2
  · intro other member
    exact sound.ids_lt other (by rw [ids_eq]; exact Multiset.mem_cons_of_mem member)
  · have mirrored := sound.mirrored
    rw [client, server, Multiset.map_cons, Multiset.cons_inj_right] at mirrored
    exact mirrored
  · intro other member
    refine sound.linked_erase session (by rw [client]; exact Multiset.mem_cons_of_mem member) ?_
    intro sameId
    have inIds : e.sessionId ∈ sessions.map Prod.fst := by
      rw [← same, ← sameId]
      exact Multiset.mem_add.mpr (.inr (Multiset.mem_map_of_mem _ member))
    exact (Multiset.nodup_cons.mp nodup).1 inIds
  · exact (Multiset.nodup_cons.mp (Multiset.nodup_cons.mp owned_nodup).2).2
  · exact still_open (Multiset.nodup_cons.mp owned_nodup).2 (still_open owned_nodup owned_open)

/-- Every step keeps the books in order. -/
theorem Step.sound (step : Step ledger next) (sound : ledger.Sound) : next.Sound := by
  cases step with
  | leak fewer => exact sound.leak fewer
  | create unused => exact sound.create unused
  | hold unused => exact sound.hold unused
  | finish session token => exact sound.finish session token
  | link session token holds => exact sound.link session token holds
  | unlink session client server => exact sound.unlink session client server

theorem steps_sound (steps : Relation.ReflTransGen Step ledger next) (sound : ledger.Sound) :
    next.Sound := by
  induction steps with
  | refl => exact sound
  | tail _ step inductionHypothesis => exact step.sound inductionHypothesis

theorem steps_fixed (steps : Relation.ReflTransGen Step ledger next) : next.fixed = ledger.fixed := by
  induction steps with
  | refl => rfl
  | tail _ step inductionHypothesis =>
    rw [← inductionHypothesis]
    cases step <;> rfl

theorem steps_nextId_le (steps : Relation.ReflTransGen Step ledger next) :
    ledger.nextId ≤ next.nextId := by
  induction steps with
  | refl => exact Nat.le_refl _
  | tail _ step inductionHypothesis =>
    refine Nat.le_trans inductionHypothesis ?_
    cases step with
    | create unused => exact Nat.le_succ _
    | _ => exact Nat.le_refl _

/-- A session is created under the next id, or it was there before. -/
theorem steps_sessions (steps : Relation.ReflTransGen Step ledger next) {key : Nat × Fd}
    (member : key ∈ next.sessions) : key ∈ ledger.sessions ∨ ledger.nextId ≤ key.1 := by
  induction steps with
  | refl => exact .inl member
  | @tail between next steps step inductionHypothesis =>
    cases step with
    | create unused =>
      rcases Multiset.mem_cons.mp member with rfl | older
      · exact .inr (steps_nextId_le steps)
      · exact inductionHypothesis older
    | finish session token => exact inductionHypothesis (by rw [session]; exact Multiset.mem_cons_of_mem member)
    | unlink session client server =>
      exact inductionHypothesis (by rw [session]; exact Multiset.mem_cons_of_mem member)
    | _ => exact inductionHypothesis member

end Ledger

end NermalProxy
