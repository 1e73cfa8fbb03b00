import A3Net.Construction.Mailbox.Recipient
import A3Net.Machine.Run

namespace A3Net.Mailbox

open Machine List Delivery

/-- A numbering gives the next sequence from the stored envelopes. It stays above the allocated
ones exactly while the stored envelopes are intact. -/
structure Numbering where
  next : List StoredEnvelope → Nat
  Small : Nat → Prop
  Numbered : List StoredEnvelope → Prop
  Intact : List StoredEnvelope → List StoredEnvelope → Prop
  small_zero : Small 0
  next_pos : ∀ bucket, 0 < next bucket
  numbered_nil : Numbered []
  numbered_concat : ∀ allocated bucket envelope, Numbered allocated → Intact allocated bucket →
    envelope.sequence = next bucket → Numbered (allocated ++ [envelope])
  intact_iff : ∀ allocated bucket : List StoredEnvelope, Numbered allocated →
    Increasing StoredEnvelope.sequence allocated → bucket.Sublist allocated →
    ((∀ envelope ∈ allocated, envelope.sequence < next bucket) ↔ Intact allocated bucket)

variable {Store : Type}

/-- A store represents one list of envelopes for each recipient. -/
structure Represents (api : MailboxStore Store) (bucket : Store → String → List StoredEnvelope)
    (purges : Store → DateTime → StoredEnvelope → Bool) (numbering : Numbering) : Prop where
  enqueue_new : ∀ store envelope now sequence,
    newSequence (api.enqueue store envelope now).2 = some sequence →
    sequence = numbering.next (bucket store envelope.recipientId) ∧ numbering.Small sequence ∧
      ∀ recipientId, bucket (api.enqueue store envelope now).1 recipientId =
        if recipientId = envelope.recipientId then
          bucket store recipientId ++ [{envelope with sequence}]
        else bucket store recipientId
  enqueue_old : ∀ store envelope now, newSequence (api.enqueue store envelope now).2 = none →
    ∀ recipientId, bucket (api.enqueue store envelope now).1 recipientId = bucket store recipientId
  pull : ∀ store recipientId since limit now, numbering.Small since →
    Increasing StoredEnvelope.sequence (bucket store recipientId) →
    ∃ count, (0 < limit → 0 < count) ∧
      (api.pull store recipientId since limit now).map StoredEnvelope.delivery =
        (pending Delivery.sequence ((bucket store recipientId).map StoredEnvelope.delivery)
          since).take count
  ack : ∀ store recipientId msgIds other,
    bucket (api.ack store recipientId msgIds).1 other = (bucket store other).filter
      fun envelope => !(other = recipientId && msgIds.contains envelope.msgId)
  purge : ∀ store now recipientId, bucket (api.purgeExpired store now).1 recipientId =
    (bucket store recipientId).filter fun envelope => !purges store now envelope

/-- A new envelope comes only while the stored ones are intact, and what an acknowledgement or a
purge removes was received or has expired. -/
def Orderly (api : MailboxStore Store) (bucket : Store → String → List StoredEnvelope)
    (purges : Store → DateTime → StoredEnvelope → Bool)
    (Intact : List StoredEnvelope → List StoredEnvelope → Prop) (owner : String)
    (watch : Watch Store) : Call → Prop
  | .enqueue envelope now =>
    envelope.recipientId = owner → newSequence (api.enqueue watch.store envelope now).2 ≠ none →
      Intact watch.allocated (bucket watch.store owner)
  | .pull _ _ _ _ | .receive _ _ => True
  | .ack recipientId msgIds =>
    recipientId = owner → ∀ envelope ∈ bucket watch.store owner, envelope.msgId ∈ msgIds →
      envelope.delivery ∈ watch.received ∨ Expired watch envelope
  | .confirm =>
    ∀ envelope ∈ bucket watch.store owner, envelope.msgId ∈ watch.unconfirmed →
      envelope.delivery ∈ watch.received ∨ Expired watch envelope
  | .purgeExpired now =>
    ∀ envelope ∈ bucket watch.store owner, purges watch.store now envelope →
      envelope.delivery ∈ watch.received ∨ envelope.expiresAt ≤ now ∨ Expired watch envelope

section

variable {api : MailboxStore Store} {bucket : Store → String → List StoredEnvelope}
  {purges : Store → DateTime → StoredEnvelope → Bool} {numbering : Numbering} {owner : String}

/-- The stored envelopes come from the history in its order, and the watermark covers what the
recipient received. -/
structure Consistent (bucket : Store → String → List StoredEnvelope) (numbering : Numbering)
    (owner : String) (watch : Watch Store) : Prop where
  numbered : numbering.Numbered watch.allocated
  sequences : ∀ envelope ∈ watch.allocated,
    0 < envelope.sequence ∧ numbering.Small envelope.sequence
  stored : (bucket watch.store owner).Sublist watch.allocated
  received : ∀ delivery ∈ watch.received, delivery.sequence ≤ watch.watermark
  marked : watch.watermark = 0 ∨ ∃ envelope ∈ watch.allocated, envelope.sequence = watch.watermark

/-- The deliveries that the watched recipient can still pull. -/
def waiting (bucket : Store → String → List StoredEnvelope) (owner : String)
    (watch : Watch Store) : List Delivery :=
  pending Delivery.sequence ((bucket watch.store owner).map StoredEnvelope.delivery) watch.watermark

theorem Consistent.small_watermark {watch : Watch Store}
    (consistent : Consistent bucket numbering owner watch) : numbering.Small watch.watermark := by
  rcases consistent.marked with zero | ⟨envelope, member, same⟩
  · rw [zero]
    exact numbering.small_zero
  · rw [← same]
    exact (consistent.sequences envelope member).2

theorem increasing_deliveries {envelopes : List StoredEnvelope}
    (increasing : Increasing StoredEnvelope.sequence envelopes) :
    Increasing sequence (envelopes.map StoredEnvelope.delivery) :=
  pairwise_map.mpr increasing

variable (laws : Represents api bucket purges numbering)
include laws

variable {watch : Watch Store}

section

variable (consistent : Consistent bucket numbering owner watch)
include consistent

variable {now : DateTime} {limit : Nat}

/-- A pull brings a front part of what waits and leaves the rest waiting. -/
theorem receive_waiting (increasing : Increasing StoredEnvelope.sequence watch.allocated) :
    ∃ count, (0 < limit → 0 < count) ∧
      (receive api owner watch limit now).received =
        watch.received ++ (waiting bucket owner watch).take count ∧
      (receive api owner watch limit now).watermark =
        advance sequence watch.watermark ((waiting bucket owner watch).take count) ∧
      waiting bucket owner (receive api owner watch limit now) =
        (waiting bucket owner watch).drop count := by
  have stored : Increasing StoredEnvelope.sequence (bucket watch.store owner) :=
    increasing.sublist consistent.stored
  obtain ⟨count, positive, batch⟩ := laws.pull watch.store owner watch.watermark limit now
    consistent.small_watermark stored
  refine ⟨count, positive, congrArg (watch.received ++ ·) batch,
    congrArg (advance sequence watch.watermark) batch, ?_⟩
  calc waiting bucket owner (receive api owner watch limit now)
      = pending sequence ((bucket watch.store owner).map StoredEnvelope.delivery)
          (advance sequence watch.watermark ((waiting bucket owner watch).take count)) :=
        congrArg (fun batch => pending sequence _ (advance sequence watch.watermark batch)) batch
    _ = (waiting bucket owner watch).drop count :=
        pending_advance (increasing_deliveries stored)

/-- A pull keeps the watch consistent and repeats no delivery. -/
theorem Consistent.receive
    (increasing : Increasing StoredEnvelope.sequence watch.allocated) (once : watch.received.Nodup)
    (limit : Nat) (now : DateTime) :
    Consistent bucket numbering owner (receive api owner watch limit now) ∧
      (Mailbox.receive api owner watch limit now).received.Nodup := by
  obtain ⟨count, -, received, watermark, -⟩ :=
    receive_waiting laws consistent increasing
  have sorted : Increasing sequence (waiting bucket owner watch) :=
    (increasing_deliveries (increasing.sublist consistent.stored)).pending watch.watermark
  have fresh : ∀ delivery ∈ (waiting bucket owner watch).take count,
      watch.watermark < delivery.sequence := fun delivery member =>
    ((mem_pending sequence).mp (mem_of_mem_take member)).2
  have batch : Increasing sequence ((waiting bucket owner watch).take count) :=
    sorted.sublist (take_sublist count _)
  obtain ⟨forward, covered⟩ := advance_bounds batch fresh
  constructor
  · refine ⟨consistent.numbered, consistent.sequences, consistent.stored, ?_, ?_⟩
    · intro delivery member
      rw [received, mem_append] at member
      rw [watermark]
      rcases member with earlier | new
      · exact (consistent.received delivery earlier).trans forward
      · exact covered delivery new
    · rw [watermark]
      rcases advance_mem with same | ⟨last, inside, same⟩
      · rw [same]
        exact consistent.marked
      · have stored := ((mem_pending sequence).mp (mem_of_mem_take inside)).1
        obtain ⟨envelope, member, rfl⟩ := mem_map.mp stored
        exact .inr ⟨envelope, consistent.stored.mem member, same⟩
  · rw [received]
    refine List.Nodup.append once batch.nodup fun delivery earlier new => ?_
    exact (consistent.received delivery earlier).not_gt (fresh delivery new)

omit consistent in
/-- Further pulls bring a front part of what waits, and each pull brings some of it. -/
theorem pulls_received {pulls : List (Nat × DateTime)}
    (consistent : Consistent bucket numbering owner watch)
    (increasing : Increasing StoredEnvelope.sequence watch.allocated) (once : watch.received.Nodup) :
    ∃ count, ((∀ pull ∈ pulls, 0 < pull.1) → pulls.length ≤ count) ∧
      (pulls.foldl (fun watch pull => receive api owner watch pull.1 pull.2) watch).received =
        watch.received ++ (waiting bucket owner watch).take count := by
  induction pulls generalizing watch with
  | nil => exact ⟨0, fun _ => Nat.le_refl 0, by simp⟩
  | cons pull rest ih =>
    obtain ⟨first, positive, received, -, left⟩ :=
      receive_waiting laws consistent increasing
    obtain ⟨next, distinct⟩ := consistent.receive laws increasing once pull.1 pull.2
    obtain ⟨later, enough, final⟩ := ih next increasing distinct
    refine ⟨first + later, fun limits => ?_, ?_⟩
    · have one := positive (limits pull mem_cons_self)
      have more := enough (forall_mem_cons.mp limits).2
      simp only [length_cons]
      omega
    · rw [foldl_cons, final, received, left, take_add, append_assoc]

/-- What further pulls bring is what the recipient has or what waits for it. -/
theorem receives_iff
    (increasing : Increasing StoredEnvelope.sequence watch.allocated) (once : watch.received.Nodup)
    (delivery : Delivery) :
    Receives api owner watch delivery ↔
      delivery ∈ watch.received ∨ delivery ∈ waiting bucket owner watch := by
  constructor
  · intro receives
    have brought := receives (List.replicate watch.allocated.length (1, 0)) (by simp) (by
      intro pull member
      rw [eq_of_mem_replicate member]
      exact Nat.one_pos)
    obtain ⟨count, -, final⟩ := pulls_received laws consistent increasing once
    rw [final, mem_append] at brought
    exact brought.imp_right mem_of_mem_take
  · intro present pulls long limits
    obtain ⟨count, enough, final⟩ := pulls_received laws consistent increasing once
    have short : (waiting bucket owner watch).length ≤ watch.allocated.length :=
      calc (waiting bucket owner watch).length
          ≤ ((bucket watch.store owner).map StoredEnvelope.delivery).length :=
            length_filter_le _ _
        _ = (bucket watch.store owner).length := length_map _
        _ ≤ watch.allocated.length := consistent.stored.length_le
    have whole : (waiting bucket owner watch).take count = waiting bucket owner watch :=
      take_of_length_le (short.trans (long.trans (enough limits)))
    rw [final, whole, mem_append]
    exact present

/-- In a consistent watch the property speaks of what waits. -/
theorem delivers_iff :
    Delivers api owner watch ↔
      Increasing StoredEnvelope.sequence watch.allocated ∧ watch.received.Nodup ∧
        ∀ envelope ∈ watch.allocated, envelope.delivery ∈ watch.received ∨
          envelope.delivery ∈ waiting bucket owner watch ∨ Expired watch envelope := by
  constructor
  · rintro ⟨increasing, once, complete⟩
    refine ⟨increasing, once, fun envelope member => ?_⟩
    rw [← or_assoc, ← receives_iff laws consistent increasing once]
    exact complete envelope member
  · rintro ⟨increasing, once, complete⟩
    refine ⟨increasing, once, fun envelope member => ?_⟩
    rw [receives_iff laws consistent increasing once, or_assoc]
    exact complete envelope member

omit laws in
/-- An envelope of the history waits while it is stored after the watermark. -/
theorem mem_waiting_iff (increasing : Increasing StoredEnvelope.sequence watch.allocated)
    {envelope : StoredEnvelope} (member : envelope ∈ watch.allocated) :
    envelope.delivery ∈ waiting bucket owner watch ↔
      envelope ∈ bucket watch.store owner ∧ watch.watermark < envelope.sequence := by
  rw [waiting, mem_pending]
  apply and_congr_left
  intro _
  constructor
  · intro present
    obtain ⟨other, stored, same⟩ := mem_map.mp present
    -- The sequence tells the envelopes of the history apart.
    have equal : other = envelope := increasing.injective (consistent.stored.mem stored) member
      (congrArg sequence same)
    exact equal ▸ stored
  · exact mem_map_of_mem

section

variable (next : Watch Store) (received : next.received = watch.received)
  (watermark : next.watermark = watch.watermark) (delivers : Delivers api owner watch)
include received watermark delivers

section

variable {keep : StoredEnvelope → Bool} (allocated : next.allocated = watch.allocated)
  (kept : bucket next.store owner = (bucket watch.store owner).filter keep)
include allocated kept

omit laws delivers in
/-- The removal of stored envelopes keeps the watch consistent. -/
theorem Consistent.remove : Consistent bucket numbering owner next where
  numbered := by rw [allocated]; exact consistent.numbered
  sequences := by rw [allocated]; exact consistent.sequences
  stored := by
    rw [allocated, kept]
    exact filter_sublist.trans consistent.stored
  received := by rw [received, watermark]; exact consistent.received
  marked := by rw [allocated, watermark]; exact consistent.marked

/-- A removal keeps the property exactly when what it removes was received or has expired. -/
theorem delivers_remove (later : ∀ envelope, Expired watch envelope → Expired next envelope) :
    Delivers api owner next ↔ ∀ envelope ∈ bucket watch.store owner, keep envelope = false →
      envelope.delivery ∈ watch.received ∨ Expired next envelope := by
  obtain ⟨increasing, once, complete⟩ := (delivers_iff laws consistent).mp delivers
  have consistentNext := consistent.remove next received watermark allocated kept
  have waits : ∀ envelope ∈ watch.allocated,
      (envelope.delivery ∈ waiting bucket owner next ↔
        (envelope ∈ bucket watch.store owner ∧ keep envelope = true) ∧
          watch.watermark < envelope.sequence) := by
    intro envelope member
    rw [← allocated] at increasing member
    rw [mem_waiting_iff consistentNext increasing member, kept, mem_filter, watermark]
  rw [delivers_iff laws consistentNext, allocated, received]
  constructor
  · rintro ⟨-, -, completeNext⟩ envelope stored removed
    have member := consistent.stored.mem stored
    rcases completeNext envelope member with had | waiting | expired
    · exact .inl had
    · have kept := ((waits envelope member).mp waiting).1.2
      rw [removed] at kept
      exact absurd kept Bool.false_ne_true
    · exact .inr expired
  · intro removed
    refine ⟨increasing, once, fun envelope member => ?_⟩
    rcases complete envelope member with had | waited | expired
    · exact .inl had
    · obtain ⟨stored, after⟩ := (mem_waiting_iff consistent increasing member).mp waited
      cases kept : keep envelope with
      | true => exact .inr (.inl ((waits envelope member).mpr ⟨⟨stored, kept⟩, after⟩))
      | false => exact (removed envelope stored kept).imp_right .inr
    · exact .inr (.inr (later envelope expired))

end

section

variable {envelope : StoredEnvelope}
  (numbered : envelope.sequence = numbering.next (bucket watch.store owner))
  (small : numbering.Small envelope.sequence)
  (allocated : next.allocated = watch.allocated ++ [envelope])
  (stored : bucket next.store owner = bucket watch.store owner ++ [envelope])
include numbered small allocated stored

omit laws delivers in
/-- A new envelope with the next sequence keeps the watch consistent while the store is intact. -/
theorem Consistent.append (intact : numbering.Intact watch.allocated (bucket watch.store owner)) :
    Consistent bucket numbering owner next where
  numbered := by
    rw [allocated]
    exact numbering.numbered_concat _ _ _ consistent.numbered intact numbered
  sequences := by
    intro other member
    rw [allocated, mem_append, mem_singleton] at member
    rcases member with earlier | rfl
    · exact consistent.sequences other earlier
    · exact ⟨numbered ▸ numbering.next_pos _, small⟩
  stored := by
    rw [allocated, stored]
    exact consistent.stored.append (List.Sublist.refl _)
  received := by rw [received, watermark]; exact consistent.received
  marked := by
    rw [allocated, watermark]
    exact consistent.marked.imp_right fun ⟨other, member, same⟩ =>
      ⟨other, mem_append_left _ member, same⟩

/-- A new envelope keeps the property exactly while the store is intact. -/
theorem delivers_append (expired : next.purges = watch.purges) :
    Delivers api owner next ↔ numbering.Intact watch.allocated (bucket watch.store owner) := by
  have exact_ := numbering.intact_iff _ _ consistent.numbered delivers.increasing consistent.stored
  rw [← numbered] at exact_
  constructor
  · rintro ⟨increasing, -, -⟩
    rw [allocated] at increasing
    obtain ⟨-, -, below⟩ := pairwise_append.mp increasing
    exact exact_.mp fun other member => below other member envelope (mem_singleton_self _)
  · intro intact
    have below := exact_.mpr intact
    have consistentNext := consistent.append next received watermark numbered small allocated
      stored intact
    obtain ⟨increasing, once, complete⟩ := (delivers_iff laws consistent).mp delivers
    -- The watermark is the sequence of an older envelope.
    have after : watch.watermark < envelope.sequence := by
      rcases consistent.marked with zero | ⟨other, member, same⟩
      · rw [zero, numbered]
        exact numbering.next_pos _
      · rw [← same]
        exact below other member
    have waits : ∀ delivery, delivery ∈ waiting bucket owner next ↔
        delivery ∈ waiting bucket owner watch ∨ delivery = envelope.delivery := by
      intro delivery
      rw [waiting, waiting, mem_pending, mem_pending, watermark, stored, map_append,
        mem_append, map_singleton, mem_singleton, or_and_right]
      refine or_congr_right ⟨And.left, fun same => ⟨same, ?_⟩⟩
      rw [same]
      exact after
    refine (delivers_iff laws consistentNext).mpr ⟨?_, received ▸ once, fun other member => ?_⟩
    · rw [allocated]
      refine pairwise_append.mpr ⟨increasing, pairwise_singleton _ _, ?_⟩
      intro other member new same
      rw [mem_singleton.mp same]
      exact below other member
    · rw [waits, received, Expired, expired]
      rw [allocated, mem_append, mem_singleton] at member
      rcases member with earlier | rfl
      · exact (complete other earlier).imp_right (Or.imp_left .inl)
      · exact .inr (.inl (.inr rfl))

end

/-- A call that removes nothing keeps the property and the watch consistent. -/
theorem delivers_keep {orderly : Prop} (holds : orderly) (allocated : next.allocated = watch.allocated)
    (purged : next.purges = watch.purges)
    (kept : bucket next.store owner = bucket watch.store owner) :
    (Delivers api owner next ↔ orderly) ∧
      (orderly → Consistent bucket numbering owner next) := by
  have all : bucket next.store owner = (bucket watch.store owner).filter fun _ => true := by
    rw [kept, filter_true]
  have later : ∀ envelope, Expired watch envelope → Expired next envelope := by
    intro envelope expired
    rw [Expired, purged]
    exact expired
  refine ⟨iff_of_true ((delivers_remove laws consistent next received watermark delivers allocated
    all later).mpr ?_) holds, fun _ => consistent.remove next received watermark allocated all⟩
  intro envelope _ removed
  exact absurd removed Bool.noConfusion

/-- An acknowledgement of the recipient's mailbox keeps the property exactly when it names only
received or expired envelopes. -/
theorem ack_exact {recipientId : String} {msgIds : List String}
    (store : next.store = (api.ack watch.store recipientId msgIds).1)
    (allocated : next.allocated = watch.allocated) (purged : next.purges = watch.purges) :
    (Delivers api owner next ↔ (recipientId = owner → ∀ envelope ∈ bucket watch.store owner,
      envelope.msgId ∈ msgIds → envelope.delivery ∈ watch.received ∨ Expired watch envelope)) ∧
    Consistent bucket numbering owner next := by
  have kept := laws.ack watch.store recipientId msgIds owner
  rw [← store] at kept
  have same : ∀ envelope, Expired next envelope ↔ Expired watch envelope := by
    intro envelope
    rw [Expired, purged, Expired]
  refine ⟨?_, consistent.remove next received watermark allocated kept⟩
  rw [delivers_remove laws consistent next received watermark delivers allocated kept
    fun envelope => (same envelope).mpr]
  simp only [same, Bool.not_eq_false', Bool.and_eq_true, decide_eq_true_eq, contains_iff_mem]
  constructor
  · intro removed mine envelope stored named
    exact removed envelope stored ⟨mine.symm, named⟩
  · intro removed envelope stored named
    exact removed named.1.symm envelope stored named.2

end

variable (delivers : Delivers api owner watch)
include delivers

/-- The call of `enqueue` keeps the property exactly when it is orderly. -/
theorem enqueue_exact {envelope : StoredEnvelope} :
    (Delivers api owner (step api owner watch (.enqueue envelope now)) ↔
      Orderly api bucket purges numbering.Intact owner watch (.enqueue envelope now)) ∧
    (Orderly api bucket purges numbering.Intact owner watch (.enqueue envelope now) →
      Consistent bucket numbering owner (step api owner watch (.enqueue envelope now))) := by
  rcases outcome : newSequence (api.enqueue watch.store envelope now).2 with _ | sequence
  · have same : (step api owner watch (.enqueue envelope now)).allocated = watch.allocated := by
      simp [step, allocate, outcome]
    exact delivers_keep laws consistent (step ..) rfl rfl delivers
      (fun _ new => absurd outcome new) same rfl (laws.enqueue_old _ _ _ outcome owner)
  · obtain ⟨numbered, small, buckets⟩ := laws.enqueue_new _ _ _ _ outcome
    by_cases mine : envelope.recipientId = owner
    · subst mine
      have allocated : (step api envelope.recipientId watch (.enqueue envelope now)).allocated =
          watch.allocated ++ [{envelope with sequence}] := by
        simp [step, allocate, outcome]
      have stored := buckets envelope.recipientId
      rw [if_pos rfl] at stored
      have orderly : Orderly api bucket purges numbering.Intact envelope.recipientId watch
          (.enqueue envelope now) ↔
          numbering.Intact watch.allocated (bucket watch.store envelope.recipientId) := by
        simp [Orderly, outcome]
      rw [orderly]
      exact ⟨delivers_append laws consistent _ rfl rfl delivers numbered small allocated stored rfl,
        fun intact => consistent.append _ rfl rfl numbered small allocated stored intact⟩
    · have same : (step api owner watch (.enqueue envelope now)).allocated = watch.allocated := by
        simp [step, allocate, mine]
      have stored := buckets owner
      rw [if_neg (Ne.symm mine)] at stored
      exact delivers_keep laws consistent (step ..) rfl rfl delivers
        (fun same => absurd same mine) same rfl stored

/-- A pull of the recipient keeps the property. -/
theorem receive_delivers :
    Delivers api owner (receive api owner watch limit now) ∧
      Consistent bucket numbering owner (receive api owner watch limit now) := by
  obtain ⟨increasing, once, complete⟩ := (delivers_iff laws consistent).mp delivers
  obtain ⟨consistentNext, distinct⟩ := consistent.receive laws increasing once limit now
  obtain ⟨count, -, received, -, left⟩ := receive_waiting laws consistent increasing
  refine ⟨(delivers_iff laws consistentNext).mpr ⟨increasing, distinct, fun envelope member => ?_⟩,
    consistentNext⟩
  rw [received, left, mem_append]
  rcases complete envelope member with had | waits | expired
  · exact .inl (.inl had)
  · rw [← take_append_drop count (waiting bucket owner watch), mem_append] at waits
    exact waits.imp .inr .inl
  · exact .inr (.inr expired)

/-- Each call keeps the property exactly when it is orderly, and then the watch is consistent. -/
theorem step_exact {call : Call} :
    (Delivers api owner (step api owner watch call) ↔
      Orderly api bucket purges numbering.Intact owner watch call) ∧
    (Orderly api bucket purges numbering.Intact owner watch call →
      Consistent bucket numbering owner (step api owner watch call)) := by
  cases call with
  | enqueue envelope now => exact enqueue_exact laws consistent delivers
  | pull recipientId since limit now =>
    exact ⟨iff_of_true delivers trivial, fun _ => consistent⟩
  | ack recipientId msgIds =>
    obtain ⟨exact_, next⟩ := ack_exact laws consistent
      (step api owner watch (.ack recipientId msgIds)) rfl rfl delivers rfl rfl
      rfl
    exact ⟨exact_, fun _ => next⟩
  | purgeExpired now =>
    have kept := laws.purge watch.store now owner
    refine ⟨?_, fun _ => consistent.remove _ rfl rfl rfl kept⟩
    rw [delivers_remove laws consistent (step api owner watch (.purgeExpired now)) rfl rfl delivers
      rfl kept
      fun _ ⟨earlier, member, past⟩ => ⟨earlier, mem_cons_of_mem now member, past⟩]
    simp [Orderly, step, Expired]
  | receive limit now =>
    obtain ⟨kept, next⟩ := receive_delivers laws consistent delivers
    exact ⟨iff_of_true kept trivial, fun _ => next⟩
  | confirm =>
    obtain ⟨exact_, next⟩ := ack_exact laws consistent
      (step api owner watch .confirm) rfl rfl delivers rfl rfl rfl
    exact ⟨exact_.trans (forall_prop_of_true rfl), fun _ => next⟩

end

/-- From an empty mailbox, a whole run delivers exactly when each of its calls is orderly. -/
theorem run_delivers_iff {start : Store} (empty : bucket start owner = []) {calls : List Call} :
    Always (step api owner) (Delivers api owner) {store := start} calls ↔
      Guarded (step api owner) (Orderly api bucket purges numbering.Intact owner)
        {store := start} calls := by
  have consistent : Consistent bucket numbering owner {store := start} :=
    ⟨numbering.numbered_nil, forall_mem_nil _, by rw [empty], forall_mem_nil _, .inl rfl⟩
  have delivers : Delivers api owner {store := start} :=
    ⟨List.Pairwise.nil, nodup_nil, forall_mem_nil _⟩
  exact always_iff_guarded_of (step api owner) (Consistent bucket numbering owner)
    (fun _ call consistent delivers _ => (step_exact laws consistent delivers).1)
    (fun _ call consistent delivers _ => (step_exact laws consistent delivers).2)
    consistent delivers (guarded_true _ _ calls)

end
end A3Net.Mailbox
