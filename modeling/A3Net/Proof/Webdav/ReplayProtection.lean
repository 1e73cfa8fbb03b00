/-
The log has only the last nonce of each capability.
-/

import A3Net.Construction.Webdav.Authorisation
import A3Net.Machine.Run

namespace A3Net.Webdav

open Machine HandlerState List

/-- The tokens that were let through stand with their nonces, the newest first. -/
structure Gate where
  state : HandlerState
  passed : List (String × Bytes32)

namespace Gate

variable (lib : Library)

def start (state : HandlerState) : Gate := ⟨state, []⟩

variable (gate : Gate) (req : Request)

def step : Gate :=
  let (result, state) := gate.state.verifyAndAuthorise lib req
  match result, gate.state.examine lib req with
  | .ok _, .ok (token, _) => ⟨state, (token.capabilityId, token.nonce) :: gate.passed⟩
  | _, _ => ⟨state, gate.passed⟩

/-- No two requests with one capability and one nonce were let through. -/
def NoReplay : Prop := gate.passed.Nodup

end Gate

variable (lib : Library) (state : HandlerState)

/-- The capability and the nonce of a request that passes the checks before the replay log. -/
def HandlerState.presents (req : Request) : Option (String × Bytes32) :=
  (state.examine lib req).toOption.map fun (token, _) => (token.capabilityId, token.nonce)

/-- These are the capabilities and the nonces of all such requests, in their order. -/
def HandlerState.presented (requests : List Request) : List (String × Bytes32) :=
  requests.filterMap (state.presents lib)

theorem HandlerState.presented_concat (past : List Request) (req : Request) :
    state.presented lib (past ++ [req]) =
      state.presented lib past ++ (state.presents lib req).toList := by
  rw [presented, filterMap_append]
  cases found : state.presents lib req <;> simp [presented, found]

/-- The log has the nonce that came last for its capability. -/
def StaticCapabilityResolver.Follows (log : StaticCapabilityResolver)
    (tokens : List (String × Bytes32)) : Prop :=
  ∀ id nonce, (id, nonce) ∈ tokens → ∃ last, log.seenNonces.lookup id = some last ∧
    (last = nonce ∨ [(id, nonce), (id, last)].Sublist tokens)

variable {lib state} {log after : StaticCapabilityResolver} {tokens : List (String × Bytes32)}
  {id : String} {nonce : Bytes32}

/-- The log follows when it has the new nonce and the same nonces of the other capabilities. -/
theorem StaticCapabilityResolver.Follows.next (follows : log.Follows tokens)
    (own : after.seenNonces.lookup id = some nonce)
    (others : ∀ other, other ≠ id → after.seenNonces.lookup other = log.seenNonces.lookup other) :
    after.Follows (tokens ++ [(id, nonce)]) := by
  intro other old member
  rcases mem_append.mp member with before | now
  · by_cases same : other = id
    · subst same
      have order : [(other, old), (other, nonce)].Sublist (tokens ++ [(other, nonce)]) :=
        (singleton_sublist.mpr before).append (List.Sublist.refl [(other, nonce)])
      exact ⟨nonce, own, .inr order⟩
    · obtain ⟨last, found, order⟩ := follows other old before
      exact ⟨last, (others other same).trans found,
        order.imp_right (·.trans (sublist_append_left ..))⟩
  · cases mem_singleton.mp now
    exact ⟨nonce, own, .inl rfl⟩

theorem StaticCapabilityResolver.Follows.record (follows : log.Follows tokens) :
    (log.recordNonce id nonce).Follows (tokens ++ [(id, nonce)]) :=
  follows.next ((Table.lookup_insert_eq _ _).trans (if_pos rfl)) fun _ ne =>
    (Table.lookup_insert_eq _ _).trans (if_neg ne)

theorem StaticCapabilityResolver.isNonceSeen_iff :
    log.isNonceSeen id nonce ↔ log.seenNonces.lookup id = some nonce := by
  unfold isNonceSeen
  cases log.seenNonces.lookup id <;> simp

/-- No nonce comes back after another nonce of its capability. -/
def NoReturn (tokens : List (String × Bytes32)) : Prop :=
  ∀ id nonce other, [(id, nonce), (id, other), (id, nonce)].Sublist tokens → other = nonce

theorem NoReturn.of_sublist {part : List (String × Bytes32)} (orderly : NoReturn tokens)
    (sublist : part.Sublist tokens) : NoReturn part :=
  fun id nonce other back => orderly id nonce other (back.trans sublist)

/-- A nonce that is not the last one was not presented before. -/
theorem NoReturn.new (orderly : NoReturn (tokens ++ [(id, nonce)])) (follows : log.Follows tokens)
    (unseen : log.seenNonces.lookup id ≠ some nonce) : (id, nonce) ∉ tokens := by
  intro member
  obtain ⟨last, found, same | order⟩ := follows id nonce member
  · exact unseen (same ▸ found)
  · have back : [(id, nonce), (id, last), (id, nonce)].Sublist (tokens ++ [(id, nonce)]) :=
      order.append (List.Sublist.refl [(id, nonce)])
    exact unseen (orderly id nonce last back ▸ found)

/-- The handler has the checks that it started with, and it has let through only nonces that were
presented, each of them once. -/
structure Gate.Sound (state : HandlerState) (tokens : List (String × Bytes32)) (gate : Gate) :
    Prop where
  log : ∃ log, gate.state = {state with staticResolver := some log} ∧ log.Follows tokens
  presented : gate.passed ⊆ tokens
  once : gate.NoReplay

/-- One request keeps the gate sound. -/
theorem Gate.Sound.step {gate : Gate} {past : List Request} {req : Request}
    (sound : gate.Sound state (state.presented lib past))
    (orderly : NoReturn (state.presented lib (past ++ [req]))) :
    (gate.step lib req).Sound state (state.presented lib (past ++ [req])) := by
  obtain ⟨current, passed⟩ := gate
  obtain ⟨⟨log, rfl, follows⟩, presented, once⟩ := sound
  have checks : {state with staticResolver := some log}.examine lib req = state.examine lib req :=
    rfl
  rw [presented_concat] at orderly ⊢
  unfold HandlerState.presents at orderly ⊢
  cases examined : state.examine lib req with
  | error error =>
    simp only [Gate.step, verifyAndAuthorise, checks, examined, Except.toOption, Option.map_none,
      Option.toList_none, append_nil]
    exact ⟨⟨log, rfl, follows⟩, presented, once⟩
  | ok pair =>
    obtain ⟨token, resolved⟩ := pair
    simp only [examined, Except.toOption, Option.map_some, Option.toList_some] at orderly ⊢
    have kept := List.Subset.trans presented
      (subset_append_left _ [(token.capabilityId, token.nonce)])
    by_cases seen : log.isNonceSeen token.capabilityId token.nonce
    · simp only [Gate.step, verifyAndAuthorise, checks, examined, guardReplay, seen, if_true]
      have last := StaticCapabilityResolver.isNonceSeen_iff.mp seen
      exact ⟨⟨log, rfl, follows.next last fun _ _ => rfl⟩, kept, once⟩
    · have unseen := mt StaticCapabilityResolver.isNonceSeen_iff.mpr seen
      have new := fun member => orderly.new follows unseen (presented member)
      by_cases allowed : authorise (some token.capabilityId) req.verb resolved.caps = .allow
      · simp only [Gate.step, verifyAndAuthorise, checks, examined, guardReplay, seen, allowed,
          Bool.false_eq_true, if_false]
        exact ⟨⟨_, rfl, follows.record⟩, cons_subset.mpr ⟨by simp, kept⟩,
          nodup_cons.mpr ⟨new, once⟩⟩
      · simp only [Gate.step, verifyAndAuthorise, checks, examined, guardReplay, seen,
          Bool.false_eq_true, if_false]
        exact ⟨⟨_, rfl, follows.record⟩, kept, once⟩

/-- The text after the scheme starts with the byte that fills the nonce, and every hash is zero. -/
def sampleLibrary : Library where
  decodeBase64 text := .ok (Cryptography.utf8Chars text)
  parseWire bytes := .ok ⟨"cred-1", Cryptography.hexChars (replicate 32 (bytes.headD 0)), 1000,
    Cryptography.hexChars (replicate 32 0)⟩
  hexError text := text
  sha256 _ := Vector.replicate 32 0

def sampleState : HandlerState where
  resolver := StaticCapabilityResolver.resolve
    {inner := AList.insert "cred-1" ⟨⟨[.filesRead, .filesWrite]⟩, 1000, false⟩ ∅}
  staticResolver := some {}
  verifier := ⟨Vector.replicate 32 0⟩

def sampleRequest (header : String) : Request := ⟨"get", some header, 0⟩

/-- The first token comes back at once, and then another one comes. -/
def repeated : List Request :=
  [sampleRequest "Capability 1", sampleRequest "Capability 1", sampleRequest "Capability 2"]

end A3Net.Webdav
