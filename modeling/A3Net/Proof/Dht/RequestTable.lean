import A3Net.Construction.Dht.Handler
import A3Net.Machine.Run

namespace A3Net.Dht

open Machine Cryptography PendingRequests List

variable {Payload CodecError : Type} (encode : DhtWireMessage Payload → Except CodecError Bytes)

inductive RequestCall (Payload : Type) where
  | registerRequest (requestId : String) (now : Nat)
  | handleResponse (msg : DhtWireMessage Payload)
  | cleanupTimeout (now : Nat)

/-- The history lists the registered identifiers and the messages that went to their channels. -/
structure RequestHistory (Payload : Type) where
  pending : PendingRequests := ∅
  registered : List String := []
  completed : List (Nat × DhtWireMessage Payload) := []

def RequestHistory.step (history : RequestHistory Payload) :
    RequestCall Payload → RequestHistory Payload
  | .registerRequest requestId now =>
    {history with
      pending := (history.pending.registerRequest requestId history.registered.length now).2
      registered := history.registered ++ [requestId]}
  | .handleResponse msg =>
    let (sent, pending) := history.pending.handleResponse encode msg
    {history with
      pending
      completed := history.completed ++ sent.toList.map fun answer => (answer.1, msg)}
  | .cleanupTimeout now => {history with pending := history.pending.cleanupTimeout now}

/-- A pending request has the identifier that it was registered with and no answer yet. -/
structure Settled (history : RequestHistory Payload) : Prop where
  waiting : ∀ id req, history.pending.lookup id = some req →
    history.registered[req.responseTx]? = some id ∧ req.responseTx ∉ history.completed.map Prod.fst
  once : (history.completed.map Prod.fst).Nodup
  answered : ∀ done ∈ history.completed, ∃ id,
    history.registered[done.1]? = some id ∧ responseId done.2 = some id
  small : history.pending.entries.length ≤ maxPendingRequests

variable {history : RequestHistory Payload}

/-- Requests may leave the table. -/
theorem Settled.fewer (settled : Settled history) {pending : PendingRequests}
    (kept : pending.entries.Sublist history.pending.entries) :
    Settled {history with pending} where
  waiting id req found := settled.waiting id req
    (AList.mem_lookup_iff.mpr (kept.subset (AList.mem_lookup_iff.mp found)))
  once := settled.once
  answered := settled.answered
  small := kept.length_le.trans settled.small

/-- A registration has a number that no earlier request has. -/
theorem Settled.register (settled : Settled history) {requestId : String} {now : Nat} :
    Settled (history.step encode (.registerRequest requestId now)) := by
  have older {number : Nat} {id : String} (found : history.registered[number]? = some id) :
      (history.registered ++ [requestId])[number]? = some id := by
    rw [List.getElem?_append_left (List.getElem?_eq_some_iff.mp found).1, found]
  have grown : Settled {history with registered := history.registered ++ [requestId]} :=
    ⟨fun id req found => (settled.waiting id req found).imp_left older, settled.once,
      fun done member => (settled.answered done member).imp fun _ => .imp_left older,
      settled.small⟩
  unfold RequestHistory.step registerRequest
  split_ifs with full
  · exact grown
  · refine ⟨fun id req found => ?_, settled.once, grown.answered, ?_⟩
    · rw [Table.lookup_insert_eq] at found
      split at found
      · next same =>
        cases found
        refine ⟨by rw [same, List.getElem?_concat_length], fun done => ?_⟩
        obtain ⟨answer, member, number⟩ := mem_map.mp done
        obtain ⟨_, known, -⟩ := settled.answered answer member
        rw [number] at known
        exact Nat.lt_irrefl _ (List.getElem?_eq_some_iff.mp known).1
      · exact grown.waiting id req found
    · have shorter := (kerase_sublist requestId history.pending.entries).length_le
      rw [AList.entries_insert, length_cons]
      omega

/-- The answered request leaves the table, and no other request has its number. -/
theorem Settled.respond (settled : Settled history) {msg : DhtWireMessage Payload} :
    Settled (history.step encode (.handleResponse msg)) := by
  unfold RequestHistory.step
  dsimp only
  fun_cases handleResponse history.pending encode msg with
  | case1 | case3 =>
    rw [Option.toList_none, map_nil, append_nil]
    exact settled
  | case2 id response req found =>
    obtain ⟨registered, waits⟩ := settled.waiting id req found
    have left : Settled {history with pending := history.pending.erase id} :=
      settled.fewer (kerase_sublist id history.pending.entries)
    refine ⟨fun other later known => ?_, ?_, forall_mem_append.mpr
      ⟨settled.answered, forall_mem_singleton.mpr ⟨id, registered, response⟩⟩, left.small⟩
    · obtain ⟨name, later_waits⟩ := left.waiting other later known
      refine ⟨name, ?_⟩
      rw [map_append, mem_append, not_or]
      refine ⟨later_waits, fun same => ?_⟩
      rw [mem_singleton.mp same, registered] at name
      cases name
      exact absurd (known.symm.trans (AList.lookup_erase id history.pending)) (by simp)
    · rw [map_append]
      exact settled.once.append (nodup_singleton _) (disjoint_singleton.mpr waits)

/-- In every run each registered request is answered at most once, only by a response with its
identifier, and the table stays within its limit. -/
theorem requests_settled (calls : List (RequestCall Payload)) :
    let history := run (RequestHistory.step encode) {} calls
    (history.completed.map Prod.fst).Nodup ∧
      (∀ done ∈ history.completed, ∃ id,
        history.registered[done.1]? = some id ∧ responseId done.2 = some id) ∧
      history.pending.entries.length ≤ 100 := by
  intro history
  have settled : Settled history := by
    refine (Guarded.always _ (fun history call settled _ => ?_) ?_ (guarded_true _ _ calls)).final
    · cases call with
      | registerRequest requestId now => exact settled.register encode
      | handleResponse msg => exact settled.respond encode
      | cleanupTimeout now => exact settled.fewer filter_sublist
    · exact ⟨fun _ _ found => absurd found (by simp), nodup_nil, forall_mem_nil _, Nat.zero_le _⟩
  exact ⟨settled.once, settled.answered, settled.small⟩

end A3Net.Dht
