import A3Net.Construction.Relay.MeteredBody

namespace A3Net.Relay

open List MeteredBody Nat UInt64

/-- A reader polls the body several times. -/
def outputs : Nat → MeteredBody → List Output
  | 0, _ => []
  | polls + 1, body => body.pollNext.1 :: outputs polls body.pollNext.2

def polled : Nat → MeteredBody → MeteredBody
  | 0, body => body
  | polls + 1, body => polled polls body.pollNext.2

def Output.bytes : Output → Bytes
  | .ready (some (.ok chunk)) => chunk
  | _ => []

def Output.isError : Output → Bool
  | .ready (some (.error _)) => true
  | _ => false

def forwarded (answers : List Output) : Bytes := answers.flatMap Output.bytes

/-- These bytes arrive before the upstream body ends or fails. -/
def upstreamBytes : List Upstream → Bytes
  | [] => []
  | .pending :: rest => upstreamBytes rest
  | .chunk bytes :: rest => bytes ++ upstreamBytes rest
  | .error _ :: _ => []

def failsUpstream (src : List Upstream) : Prop := ∃ text, .error text ∈ src

/-- The reader gets the upstream bytes up to the limit, and an error exactly when they were cut
off. -/
structure Metered (limit : UInt64) (src : List Upstream) (counter : UInt64) : Prop where
  limited : ∀ polls, let answers := outputs polls (meteredBodyStream src limit counter true)
    forwarded answers <+: upstreamBytes src ∧ (forwarded answers).length ≤ limit.toNat
  ends : ∃ polls, .ready none ∈ outputs polls (meteredBodyStream src limit counter true)
  exact : ∀ polls, let answers := outputs polls (meteredBodyStream src limit counter true)
    .ready none ∈ answers →
      ((∀ answer ∈ answers, answer.isError = false) ↔
        ¬ failsUpstream src ∧ (upstreamBytes src).length ≤ limit.toNat) ∧
      ((∀ answer ∈ answers, answer.isError = false) → forwarded answers = upstreamBytes src)
  once : ∀ polls, let answers := outputs polls (meteredBodyStream src limit counter true)
    (answers.filter Output.isError).length ≤ 1 ∧
      answers.Pairwise fun earlier later => earlier.isError → later = .ready none
  completes : ∀ polls, .ready none ∈ outputs polls (meteredBodyStream src limit counter true) →
    (polled polls (meteredBodyStream src limit counter true)).signals = 1

/-- The body still reads its inner stream, and its counter is exact as far as the limit needs it. -/
structure Live (body : MeteredBody) (inner : List Upstream) (total limit : Nat) : Prop where
  source : body.inner = inner
  counter : body.total.toNat = total
  bound : body.maxBytes.toNat = limit
  running : body.aborted = false
  within : total ≤ limit
  counts : limit < usizeMax ∨ total + (upstreamBytes inner).length ≤ usizeMax

variable {body : MeteredBody} {inner : List Upstream} {total limit : Nat}

theorem fireCompletion_same (body : MeteredBody) :
    body.fireCompletion.inner = body.inner ∧ body.fireCompletion.total = body.total ∧
      body.fireCompletion.maxBytes = body.maxBytes ∧
      body.fireCompletion.aborted = body.aborted := by
  unfold fireCompletion
  split_ifs <;> exact ⟨rfl, rfl, rfl, rfl⟩

theorem abort_closes {error : BoundedBodyError} :
    ∃ next, body.abort error = (.ready (some (.error error)), next) ∧ next.aborted = true :=
  ⟨_, rfl, (fireCompletion_same _).2.2.2⟩

theorem toNat_saturatingCount (count : UInt64) (length : Nat) :
    (saturatingCount count length).toNat = min (count.toNat + length) usizeMax := by
  unfold saturatingCount
  rw [toNat_ofNat_of_lt']
  have bound : usizeMax < UInt64.size := by decide
  omega

theorem Live.ended (live : Live body [] total limit) :
    ∃ next, body.pollNext = (.ready none, next) ∧ Live next [] total limit := by
  have same := fireCompletion_same {body with bytesCounter := body.total}
  refine ⟨fireCompletion {body with bytesCounter := body.total}, ?_, ?_⟩
  · rw [pollNext, live.running, live.source]
    rfl
  · exact ⟨same.1.trans live.source, (congrArg toNat same.2.1).trans live.counter,
      (congrArg toNat same.2.2.1).trans live.bound, same.2.2.2.trans live.running,
      live.within, live.counts⟩

variable {bytes : Bytes}

section

variable (live : Live body (.chunk bytes :: inner) total limit)
include live

theorem Live.receive : body.pollNext = receive {body with inner} bytes := by
  rw [pollNext, live.running, live.source]
  rfl

/-- The counter passes the limit exactly when the bytes do. -/
theorem Live.passes_iff :
    body.maxBytes < saturatingCount body.total bytes.length ↔ limit < total + bytes.length := by
  have counts := live.counts
  rw [lt_iff_toNat_lt, toNat_saturatingCount, live.counter, live.bound]
  rw [upstreamBytes, length_append] at counts
  omega

end

/-- An upstream answer is passed on with its bytes. -/
structure Forwards (answer : Upstream) (output : Output) : Prop where
  quiet : output.isError = false
  goes : .ready none ≠ output
  bytes : ∀ inner, upstreamBytes (answer :: inner) = output.bytes ++ upstreamBytes inner
  fails : ∀ inner, failsUpstream (answer :: inner) ↔ failsUpstream inner

variable {answer : Upstream}

/-- A poll of a live body passes the next answer on, or cuts the bytes to come off. -/
theorem Live.poll (live : Live body (answer :: inner) total limit) :
    (∃ output next, body.pollNext = (output, next) ∧ Forwards answer output ∧
      Live next inner (total + output.bytes.length) limit) ∨
    ∃ error next, body.pollNext = (.ready (some (.error error)), next) ∧ next.aborted = true ∧
      (failsUpstream (answer :: inner) ∨
        limit < total + (upstreamBytes (answer :: inner)).length) := by
  cases answer with
  | pending =>
    refine .inl ⟨.pending, {body with inner}, ?_, ⟨rfl, nofun, fun _ => rfl, ?_⟩, ?_⟩
    · rw [pollNext, live.running, live.source]
      rfl
    · simp [failsUpstream]
    · exact ⟨rfl, live.counter, live.bound, live.running, live.within, live.counts⟩
  | chunk bytes =>
    by_cases passes : limit < total + bytes.length
    · obtain ⟨next, closed, aborted⟩ := abort_closes
      have cut := live.receive.trans ((if_pos (live.passes_iff.mpr passes)).trans closed)
      refine .inr ⟨_, next, cut, aborted, .inr ?_⟩
      rw [upstreamBytes, length_append]
      omega
    · have counts := live.counts
      rw [upstreamBytes, length_append] at counts
      refine .inl ⟨.ready (some (.ok bytes)), _,
        live.receive.trans (if_neg (mt live.passes_iff.mp passes)),
        ⟨rfl, nofun, fun _ => rfl, ?_⟩, rfl, ?_, live.bound, live.running,
        Nat.le_of_not_lt passes, ?_⟩
      · simp [failsUpstream]
      · rw [toNat_saturatingCount, live.counter]
        exact min_eq_left (by omega)
      · rw [Output.bytes]
        omega
  | error text =>
    obtain ⟨next, closed, aborted⟩ := abort_closes
    refine .inr ⟨.upstream text, next, ?_, aborted, .inl ⟨text, mem_cons_self⟩⟩
    rw [pollNext, live.running, live.source]
    exact closed

def ends (count : Nat) : List Output := List.replicate count (.ready none)

/-- After an abort each poll finds the end. -/
theorem outputs_aborted (polls : Nat) (aborted : body.aborted = true) :
    outputs polls body = ends polls := by
  induction polls generalizing body with
  | zero => rfl
  | succ polls ih =>
    have closed : body.pollNext = (.ready none, body.fireCompletion) := if_pos aborted
    rw [outputs, closed, ih ((fireCompletion_same body).2.2.2.trans aborted)]
    rfl

/-- After the end each poll finds the end. -/
theorem outputs_ended (polls : Nat) (live : Live body [] total limit) :
    outputs polls body = ends polls := by
  induction polls generalizing body with
  | zero => rfl
  | succ polls ih =>
    obtain ⟨next, closed, later⟩ := live.ended
    rw [outputs, closed, ih later]
    rfl

/-- The answers of a live body forward the bytes to come. -/
structure Answers (inner : List Upstream) (total limit : Nat) (answers : List Output) : Prop where
  start : forwarded answers <+: upstreamBytes inner
  within : total + (forwarded answers).length ≤ limit
  exact : .ready none ∈ answers →
    ((∀ answer ∈ answers, answer.isError = false) ↔
      ¬ failsUpstream inner ∧ total + (upstreamBytes inner).length ≤ limit) ∧
    ((∀ answer ∈ answers, answer.isError = false) → forwarded answers = upstreamBytes inner)
  once : (answers.filter Output.isError).length ≤ 1
  silent : answers.Pairwise fun earlier later => earlier.isError → later = .ready none

variable {answers : List Output} {count : Nat}

theorem forwarded_ends : forwarded (ends count) = [] := by
  induction count with
  | zero => rfl
  | succ count ih => exact ih

theorem Answers.unpolled (within : total ≤ limit) : Answers inner total limit [] where
  start := nil_prefix
  within := within
  exact ended := absurd ended not_mem_nil
  once := zero_le 1
  silent := List.Pairwise.nil

theorem quiet_ends : ∀ answer ∈ ends count, answer.isError = false := by
  intro answer member
  rw [eq_of_mem_replicate member]
  rfl

theorem filter_ends : (ends count).filter Output.isError = [] :=
  filter_eq_nil_iff.mpr fun answer member => by simp [quiet_ends answer member]

theorem Answers.ended (within : total ≤ limit) (count : Nat) :
    Answers [] total limit (ends count) := by
  have clean : ¬ failsUpstream [] := fun ⟨_, member⟩ => not_mem_nil member
  refine ⟨?_, ?_, fun _ => ⟨?_, fun _ => forwarded_ends⟩, ?_, ?_⟩
  · rw [forwarded_ends]
    exact nil_prefix
  · rw [forwarded_ends]
    exact within
  · exact ⟨fun _ => ⟨clean, within⟩, fun _ => quiet_ends⟩
  · rw [filter_ends]
    exact zero_le 1
  · exact pairwise_of_forall_mem_list fun first _ second member _ =>
      eq_of_mem_replicate member

/-- An error cuts the bytes to come off. -/
theorem Answers.cut (within : total ≤ limit) (error : BoundedBodyError) (count : Nat)
    (lost : failsUpstream inner ∨ limit < total + (upstreamBytes inner).length) :
    Answers inner total limit (.ready (some (.error error)) :: ends count) := by
  have empty : forwarded (.ready (some (.error error)) :: ends count) = [] := forwarded_ends
  have loud : ¬ ∀ answer ∈ .ready (some (.error error)) :: ends count, answer.isError = false :=
    fun all => Bool.noConfusion (all _ mem_cons_self)
  refine ⟨?_, ?_, fun _ => ⟨⟨fun all => absurd all loud, ?_⟩, fun all => absurd all loud⟩, ?_, ?_⟩
  · rw [empty]
    exact nil_prefix
  · rw [empty]
    exact within
  · rintro ⟨clean, fits⟩
    rcases lost with fails | passes
    · exact absurd fails clean
    · omega
  · rw [filter_cons_of_pos rfl, filter_ends]
    exact le_refl 1
  · exact List.Pairwise.cons (fun answer member _ => eq_of_mem_replicate member)
      (Answers.ended within count).silent

theorem Answers.forward {output : Output} (passed : Forwards answer output)
    (later : Answers inner (total + output.bytes.length) limit answers) :
    Answers (answer :: inner) total limit (output :: answers) := by
  have sent : forwarded (output :: answers) = output.bytes ++ forwarded answers := rfl
  have within := later.within
  refine ⟨?_, ?_, ?_, ?_, ?_⟩
  · rw [sent, passed.bytes]
    exact (prefix_append_right_inj _).mpr later.start
  · rw [sent, length_append]
    omega
  · intro ended
    have known := later.exact ((mem_cons.mp ended).resolve_left passed.goes)
    rw [passed.fails, forall_mem_cons, and_iff_right passed.quiet, sent, passed.bytes, length_append, ← add_assoc,
      append_cancel_left_eq]
    exact known
  · rw [filter_cons_of_neg (by simp [passed.quiet])]
    exact later.once
  · refine List.Pairwise.cons (fun _ _ error => ?_) later.silent
    rw [passed.quiet] at error
    cases error

/-- Every number of polls of a live body gives such answers. -/
theorem Live.reads (live : Live body inner total limit) (polls : Nat) :
    Answers inner total limit (outputs polls body) := by
  induction polls generalizing body inner total with
  | zero => exact Answers.unpolled live.within
  | succ polls ih =>
    cases inner with
    | nil =>
      rw [outputs_ended _ live]
      exact Answers.ended live.within _
    | cons answer inner =>
      rcases live.poll with ⟨_, _, polled, passed, later⟩ | ⟨error, _, polled, aborted, lost⟩
      · rw [outputs, polled]
        exact (ih later).forward passed
      · rw [outputs, polled, outputs_aborted polls aborted]
        exact Answers.cut live.within error polls lost

/-- A live body comes to its end. -/
theorem Live.ends (live : Live body inner total limit) :
    ∃ polls, .ready none ∈ outputs polls body := by
  induction inner generalizing body total with
  | nil =>
    refine ⟨1, ?_⟩
    rw [outputs_ended 1 live]
    exact mem_singleton_self _
  | cons answer inner ih =>
    rcases live.poll with ⟨_, _, polled, _, later⟩ | ⟨_, _, polled, aborted, _⟩
    · obtain ⟨polls, ended⟩ := ih later
      refine ⟨polls + 1, ?_⟩
      rw [outputs, polled]
      exact mem_cons_of_mem _ ended
    · refine ⟨2, ?_⟩
      rw [outputs, polled, outputs_aborted 1 aborted]
      exact mem_cons_of_mem _ (mem_singleton_self _)

def Armed (body : MeteredBody) : Prop := body.completionTx = true ∧ body.signals = 0

def Fired (body : MeteredBody) : Prop := body.completionTx = false ∧ body.signals = 1

theorem fireCompletion_fired (ready : Armed body ∨ Fired body) : Fired body.fireCompletion := by
  unfold fireCompletion
  rcases ready with ⟨sender, silent⟩ | ⟨sender, fired⟩
  · rw [if_pos sender]
    exact ⟨rfl, congrArg (· + 1) silent⟩
  · rw [if_neg (by simp [sender])]
    exact ⟨sender, fired⟩

/-- Each poll that does not fire the signal leaves it alone, and a poll that ends the body fires
it. -/
theorem pollNext_signal :
    (∃ closed : MeteredBody, body.pollNext.2 = closed.fireCompletion ∧
      closed.completionTx = body.completionTx ∧ closed.signals = body.signals) ∨
    body.pollNext.1 ≠ .ready none ∧ body.pollNext.2.completionTx = body.completionTx ∧
      body.pollNext.2.signals = body.signals := by
  unfold pollNext
  split_ifs
  · exact .inl ⟨body, rfl, rfl, rfl⟩
  · split
    · exact .inl ⟨_, rfl, rfl, rfl⟩
    · exact .inr ⟨by simp, rfl, rfl⟩
    · unfold receive
      dsimp only
      split_ifs
      · exact .inl ⟨_, rfl, rfl, rfl⟩
      · exact .inr ⟨by simp, rfl, rfl⟩
    · exact .inl ⟨_, rfl, rfl, rfl⟩

theorem pollNext_fired (fired : Fired body) : Fired body.pollNext.2 := by
  rcases pollNext_signal with ⟨closed, same, sender, signals⟩ | ⟨_, sender, signals⟩
  · rw [same]
    exact fireCompletion_fired (.inr ⟨sender.trans fired.1, signals.trans fired.2⟩)
  · exact ⟨sender.trans fired.1, signals.trans fired.2⟩

theorem polled_fired (polls : Nat) (fired : Fired body) : Fired (polled polls body) := by
  induction polls generalizing body with
  | zero => exact fired
  | succ polls ih => exact ih (pollNext_fired fired)

/-- The end of the body is signalled once. -/
theorem polled_completes {polls : Nat} (armed : Armed body)
    (ended : .ready none ∈ outputs polls body) : Fired (polled polls body) := by
  induction polls generalizing body with
  | zero => exact absurd ended not_mem_nil
  | succ polls ih =>
    rcases pollNext_signal with ⟨closed, same, sender, signals⟩ | ⟨running, sender, signals⟩
    · refine polled_fired polls ?_
      rw [same]
      exact fireCompletion_fired (.inl ⟨sender.trans armed.1, signals.trans armed.2⟩)
    · rcases mem_cons.mp ended with now | later
      · exact absurd now.symm running
      · exact ih ⟨sender.trans armed.1, signals.trans armed.2⟩ later

/-- A limit below the largest counter, or a body that the counter can count, is metered. -/
theorem meteredBody_metered (limit : UInt64) (src : List Upstream) (counter : UInt64)
    (counts : limit.toNat < usizeMax ∨ (upstreamBytes src).length ≤ usizeMax) :
    Metered limit src counter := by
  have live : Live (meteredBodyStream src limit counter true) src 0 limit.toNat :=
    ⟨rfl, rfl, rfl, rfl, zero_le _, by simpa using counts⟩
  refine ⟨fun polls => ?_, live.ends, fun polls => ?_, fun polls => ?_, fun polls ended => ?_⟩
  · have answers := live.reads polls
    exact ⟨answers.start, by simpa using answers.within⟩
  · simpa using (live.reads polls).exact
  · exact ⟨(live.reads polls).once, (live.reads polls).silent⟩
  · exact (polled_completes ⟨rfl, rfl⟩ ended).2

/-- The second chunk crosses the limit of three bytes. -/
theorem meteredBody_metered_crossed :
    ((3 : UInt64).toNat < usizeMax ∨
      (upstreamBytes [.chunk [1, 2], .chunk [3, 4]]).length ≤ usizeMax) ∧
    Metered 3 [.chunk [1, 2], .chunk [3, 4]] 0 :=
  ⟨by decide, meteredBody_metered 3 [.chunk [1, 2], .chunk [3, 4]] 0 (by decide)⟩

variable {chunks : List Bytes}

/-- At the largest limit the counter never passes the limit. -/
theorem outputs_unlimited (source : body.inner = chunks.map .chunk) (running : body.aborted = false)
    (limit : body.maxBytes.toNat = usizeMax) :
    forwarded (outputs chunks.length body) = chunks.flatten := by
  induction chunks generalizing body with
  | nil => rfl
  | cons bytes chunks ih =>
    have below : ¬ body.maxBytes < saturatingCount body.total bytes.length := by
      rw [lt_iff_toNat_lt, toNat_saturatingCount, limit]
      omega
    have polled : body.pollNext = receive {body with inner := chunks.map .chunk} bytes := by
      rw [pollNext, running, source]
      rfl
    have received := polled.trans (if_neg below)
    rw [length_cons, outputs, received]
    exact congrArg (bytes ++ ·) (ih rfl running limit)

theorem not_metered_of_long (long : usizeMax < chunks.flatten.length) :
    ¬ Metered 18446744073709551615 (chunks.map .chunk) 0 := by
  intro metered
  have most := (metered.limited chunks.length).2
  rw [outputs_unlimited rfl rfl rfl] at most
  exact absurd (lt_of_lt_of_le long most) (lt_irrefl _)

/-- The counter stops at its largest value, so at that limit a body of one byte more is forwarded
whole. -/
theorem meteredBody_not_metered :
    ¬ Metered 18446744073709551615
      ((List.replicate 281474976710656 (List.replicate 65536 0)).map Upstream.chunk) 0 := by
  apply not_metered_of_long
  rw [length_flatten, map_replicate, length_replicate, sum_replicate_nat]
  decide

end A3Net.Relay
