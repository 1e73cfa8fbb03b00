/-
The budget is looked at after the retry that spends it, and the handler gets the event of the call
that drains the spool, so a delivery that fails often enough is posted once too often.
-/

import A3Net.Machine.Run
import A3Net.Proof.Webhook.DeliverySteps

namespace A3Net.Webhook

open Machine List Option Nat

variable {Line : Type} (env : Environment Line)

/-- The calls that were made are history. -/
structure Ledger (Line : Type) where
  world : World Line
  calls : List Call := []

variable (ledger : Ledger Line) (world : World Line) (call : Call)

def budgetStep : Ledger Line :=
  ⟨(deliver env ledger.world call).2, ledger.calls ++ [call]⟩

/-- A fresh sink, with an empty spool or without one, has a handler for dropped deliveries. -/
def startLedger (endpoints : List EndpointConfig) (spooled : Bool) (maxAttempts : UInt32) :
    Ledger Line :=
  match withOptions env endpoints (if spooled then some none else none) maxAttempts with
  | .ok sink => ⟨{sink := setDroppedHandler sink true}, []⟩
  | .error _ => ⟨{sink := {endpoints, spool := none, maxAttempts}}, []⟩

def Drop.pair (drop : Drop) : Pair := ⟨drop.deliveryId, drop.endpoint.url⟩

variable (pair : Pair)

def postsFor : List Post :=
  world.posted.filter fun post => post.pair = pair

def failuresFor : List Post :=
  (postsFor world pair).filter fun post => fails post.result

def dropsFor : List Drop :=
  world.drops.filter fun drop => drop.pair = pair

/-- No delivery is posted too often to an endpoint, and one that failed often enough was dropped
once, with its own event. -/
def WithinBudget : Prop :=
  ∀ call ∈ ledger.calls, ∀ url,
    (postsFor ledger.world ⟨call.deliveryId, url⟩).length ≤
        ledger.world.sink.maxAttempts.toNat ∧
      (ledger.world.sink.maxAttempts.toNat ≤
          (failuresFor ledger.world ⟨call.deliveryId, url⟩).length →
        ∃ drop, dropsFor ledger.world ⟨call.deliveryId, url⟩ = [drop] ∧ drop.event = call.event)

/-- The retried entries stand with what comes of their posts. -/
def retried (entries : List SpoolEntry) : List (SpoolEntry × PostResult) :=
  retryEach (fun entry result => [(entry, result)]) call 0 entries

/-- No failed post of the call uses the budget of its delivery up. -/
def SparesBudget : Prop :=
  ∀ body, env.encode call.event = .ok body →
    (spooled call body 0 ledger.world.sink.endpoints ≠ [] →
      1 < ledger.world.sink.maxAttempts.toNat) ∧
    ∀ pending, ledger.world.sink.spool = some pending →
      ∀ item ∈ retried call (drained ledger.world call body pending), fails item.2 = true →
        item.1.attempts.toNat + 1 < ledger.world.sink.maxAttempts.toNat

variable {pair : Pair}

section Filters

variable {env} {entries : List SpoolEntry}

/-- What the retries of a pair give comes from the entries of the pair. -/
theorem filter_retryEach {Item : Type} {one : SpoolEntry → PostResult → List Item}
    {pairOf : Item → Pair}
    (own : ∀ entry ∈ entries, ∀ result, ∀ item ∈ one entry result, pairOf item = entry.pair)
    {call : Call} (index : Nat) :
    (retryEach one call index entries).filter (fun item => pairOf item = pair) =
      ((retryEach (fun entry result => [(entry, result)]) call index entries).filter
        fun item => item.1.pair = pair).flatMap fun item => one item.1 item.2 := by
  induction entries generalizing index with
  | nil => rfl
  | cons entry rest ih =>
    have later := ih (forall_mem_cons.mp own).2 (index + 1)
    have first := own entry mem_cons_self (call.again index)
    unfold retryEach
    rw [filter_append, later, singleton_append]
    by_cases same : entry.pair = pair
    · rw [filter_cons_of_pos (by simpa using same)]
      congr 1
      apply filter_eq_self.mpr
      intro item member
      simpa [first item member] using same
    · rw [filter_cons_of_neg (by simpa using same)]
      have none : (one entry (call.again index)).filter (fun item => pairOf item = pair) = [] := by
        apply filter_eq_nil_iff.mpr
        intro item member
        simpa [first item member] using same
      rw [none, nil_append]

variable {endpoints : List EndpointConfig} (call : Call)

theorem map_retried (index : Nat) :
    ((retryEach (fun entry result => [(entry, result)]) call index entries).filter
      fun item => item.1.pair = pair).map Prod.fst =
        entries.filter fun entry => entry.pair = pair := by
  induction entries generalizing index with
  | nil => rfl
  | cons entry rest ih =>
    unfold retryEach
    rw [singleton_append, filter_cons, filter_cons]
    split_ifs
    · rw [map_cons, ih]
    · exact ih (index + 1)

theorem filter_unless {Item : Type} {test : Item → Bool} {made : Bool} {item : Item}
    (other : test item = false) : (if made then [item] else []).filter test = [] := by
  cases made with
  | false => rfl
  | true => exact filter_cons_of_neg (Bool.eq_false_iff.mp other)

/-- A call posts to other pairs only in its retries. -/
theorem first_elsewhere (body : Bytes) {pair : Pair} (index : Nat)
    (elsewhere : pair.deliveryId ≠ call.deliveryId ∨ pair.url ∉ endpoints.map EndpointConfig.url) :
    (firstPosts env call body index endpoints).filter (fun post => post.pair = pair) = [] ∧
      (spooled call body index endpoints).filter (fun entry => entry.pair = pair) = [] := by
  induction endpoints generalizing index with
  | nil => exact ⟨rfl, rfl⟩
  | cons endpoint rest ih =>
    have other : (⟨call.deliveryId, endpoint.url⟩ : Pair) ≠ pair := by
      rintro rfl
      simp at elsewhere
    have later := ih (index + 1) (elsewhere.imp_right fun outside inside =>
      outside (mem_cons_of_mem _ inside))
    unfold firstPosts spooled
    rw [filter_append, filter_append, later.1, later.2]
    rw [filter_unless, filter_unless]
    · exact ⟨rfl, rfl⟩
    all_goals exact decide_eq_false other

/-- A call posts at most once to each endpoint, and it spools that post when it fails. -/
theorem first_once (body : Bytes) (url : String) (urls : (endpoints.map EndpointConfig.url).Nodup)
    (index : Nat) :
    ((firstPosts env call body index endpoints).filter
          (fun post => post.pair = ⟨call.deliveryId, url⟩) = [] ∧
        (spooled call body index endpoints).filter
          (fun entry => entry.pair = ⟨call.deliveryId, url⟩) = []) ∨
      (url ∈ endpoints.map EndpointConfig.url ∧ ∃ post,
        (firstPosts env call body index endpoints).filter
          (fun post => post.pair = ⟨call.deliveryId, url⟩) = [post] ∧
        (spooled call body index endpoints).filter
          (fun entry => entry.pair = ⟨call.deliveryId, url⟩) =
            if fails post.result then [⟨call.deliveryId, url, body, 1⟩] else []) := by
  induction endpoints generalizing index with
  | nil => exact .inl ⟨rfl, rfl⟩
  | cons endpoint rest ih =>
    rw [map_cons, nodup_cons] at urls
    unfold firstPosts spooled
    rw [filter_append, filter_append]
    by_cases same : endpoint.url = url
    · subst same
      have later := @first_elsewhere Line env rest call body
        ⟨call.deliveryId, endpoint.url⟩ (index + 1) (.inr urls.1)
      rw [later.1, later.2]
      cases roomMatches call.event endpoint with
      | false => exact .inl ⟨rfl, rfl⟩
      | true =>
        right
        refine ⟨mem_cons_self, ⟨⟨call.deliveryId, endpoint.url⟩, body,
          env.signBody endpoint.secret body, call.first index⟩, by simp, ?_⟩
        cases fails (call.first index) <;> simp [SpoolEntry.pair]
    · have other : (⟨call.deliveryId, endpoint.url⟩ : Pair) ≠ ⟨call.deliveryId, url⟩ := by
        simpa using same
      rw [filter_unless, filter_unless]
      · exact (ih urls.2 (index + 1)).imp_right fun later =>
          ⟨mem_cons_of_mem _ later.1, later.2⟩
      all_goals exact decide_eq_false other

end Filters

section Budget

variable {env}

def failing (posts : List Post) : List Post := posts.filter fun post => fails post.result

/-- An entry waits for its next retry with its failures counted. -/
structure Waits (sink : WebhookSink) (posts : List Post) (drops : List Drop) (entry : SpoolEntry) :
    Prop where
  known : (endpointOf sink entry).isSome
  attempts : entry.attempts.toNat = (failing posts).length
  failed : posts.length = (failing posts).length
  undropped : drops = []

/-- This is known about the posts, the drops and the entries of one pair. -/
structure InBudget (sink : WebhookSink) (posts : List Post) (drops : List Drop)
    (entries : List SpoolEntry) : Prop where
  few : posts.length ≤ (failing posts).length + 1
  below : (failing posts).length < sink.maxAttempts.toNat
  waits : entries = [] ∨ ∃ entry, entries = [entry] ∧ Waits sink posts drops entry

theorem failing_append (posts more : List Post) :
    failing (posts ++ more) = failing posts ++ failing more :=
  filter_append ..

variable {sink : WebhookSink} {posts : List Post} {drops : List Drop} {entries : List SpoolEntry}
  {entry : SpoolEntry} {result : PostResult}

theorem retryPosts_known (known : (endpointOf sink entry).isSome) (result : PostResult) :
    ∃ post, retryPosts env sink entry result = [post] ∧ post.result = result := by
  obtain ⟨endpoint, found⟩ := isSome_iff_exists.mp known
  rw [retryPosts, found]
  exact ⟨_, rfl, rfl⟩

theorem toNat_succ {attempts bound : UInt32} (below : attempts.toNat < bound.toNat) :
    (attempts + 1).toNat = attempts.toNat + 1 := by
  have top := bound.toNat_lt
  exact mod_eq_of_lt (by simp; omega)

/-- An entry that waits survives a failed retry, and nobody hears of it. -/
theorem waits_survives (waits : Waits sink posts drops entry)
    (below : (failing posts).length < sink.maxAttempts.toNat) (failed : fails result = true) :
    survivor sink entry result = some {entry with attempts := entry.attempts + 1} := by
  rw [← waits.attempts] at below
  have unspent : ¬ sink.maxAttempts < entry.attempts + 1 := by
    rw [UInt32.lt_iff_toNat_lt, toNat_succ below]
    omega
  simp [survivor, waits.known, failed, unspent]

theorem dropsOf_survivor {kept : SpoolEntry} (stays : survivor sink entry result = some kept)
    (event : AdnetEvent) : dropsOf sink event entry result = [] := by
  simp [dropsOf, stays]

/-- A retry that does not use the budget up leaves the pair in its budget. -/
theorem InBudget.retry (budget : InBudget sink posts drops entries) (event : AdnetEvent)
    {items : List (SpoolEntry × PostResult)} (retries : items.map Prod.fst = entries)
    (spares : ∀ item ∈ items, fails item.2 = true →
      item.1.attempts.toNat + 1 < sink.maxAttempts.toNat) :
    InBudget sink (posts ++ items.flatMap fun item => retryPosts env sink item.1 item.2)
      (drops ++ items.flatMap fun item => dropsOf sink event item.1 item.2)
      (items.flatMap fun item => (survivor sink item.1 item.2).toList) := by
  rcases budget.waits with none | ⟨entry, one, waits⟩
  · obtain rfl : items = [] := map_eq_nil_iff.mp (retries.trans none)
    simpa [none] using budget
  · obtain ⟨⟨retried, result⟩, rfl, same⟩ := map_eq_singleton_iff.mp (retries.trans one)
    obtain rfl : retried = entry := same
    obtain ⟨post, posted, outcome⟩ := @retryPosts_known Line env _ _ waits.known result
    simp only [flatMap_cons, flatMap_nil, append_nil, posted]
    cases failed : fails result with
    | true =>
      have more : failing (posts ++ [post]) = failing posts ++ [post] := by
        simp [failing, outcome, failed]
      have room := spares _ mem_cons_self failed
      have small : retried.attempts.toNat < sink.maxAttempts.toNat := lt_of_succ_lt room
      have stays := waits_survives waits budget.below failed
      rw [stays, dropsOf_survivor stays, append_nil]
      refine ⟨?_, ?_, .inr ⟨_, rfl, waits.known, ?_, ?_, waits.undropped⟩⟩
      · rw [more, length_append, length_append, waits.failed]
        omega
      · rw [more, length_append, ← waits.attempts]
        exact room
      · rw [more, length_append, ← waits.attempts]
        exact toNat_succ small
      · rw [more, length_append, length_append, waits.failed]
    | false =>
      have same : failing (posts ++ [post]) = failing posts := by
        simp [failing, outcome, failed]
      refine ⟨?_, ?_, .inl ?_⟩
      · rw [same, length_append, waits.failed]
        rfl
      · rw [same]
        exact budget.below
      · simp [survivor, failed]

/-- The first posts of a call leave a pair in its budget when a failure does not use it up. -/
theorem InBudget.first {pending : List SpoolEntry} {call : Call} {body : Bytes} {pair : Pair}
    (budget : InBudget sink posts drops (pending.filter fun entry => entry.pair = pair))
    (urls : (sink.endpoints.map EndpointConfig.url).Nodup)
    (fresh : pair.deliveryId = call.deliveryId →
      posts = [] ∧ drops = [] ∧ pending.filter (fun entry => entry.pair = pair) = [])
    (spares : spooled call body 0 sink.endpoints ≠ [] → 1 < sink.maxAttempts.toNat) :
    InBudget sink (posts ++ (firstPosts env call body 0 sink.endpoints).filter
        fun post => post.pair = pair) drops
      ((pending ++ spooled call body 0 sink.endpoints).filter fun entry => entry.pair = pair) := by
  rw [filter_append]
  by_cases own : pair.deliveryId = call.deliveryId
  · obtain ⟨rfl, rfl, unspooled⟩ := fresh own
    obtain ⟨deliveryId, url⟩ := pair
    obtain rfl : deliveryId = call.deliveryId := own
    rcases @first_once Line env sink.endpoints call body url urls 0 with
      ⟨unposted, none⟩ | ⟨known, post, posted, entries⟩
    · rw [unposted, none, append_nil, append_nil]
      exact budget
    · rw [posted, entries, unspooled, nil_append]
      cases failed : fails post.result with
      | false =>
        have none : failing [post] = [] := by simp [failing, failed]
        exact ⟨by rw [none]; rfl, by rw [none]; exact budget.below, .inl rfl⟩
      | true =>
        have one : failing [post] = [post] := by simp [failing, failed]
        have there : spooled call body 0 sink.endpoints ≠ [] := by
          intro nothing
          rw [nothing, failed] at entries
          cases entries
        refine ⟨by rw [one]; simp, by rw [one]; exact spares there, .inr ⟨_, rfl, ?_, ?_, ?_, rfl⟩⟩
        · simpa [endpointOf] using known
        · rw [one]
          rfl
        · rw [one]
  · obtain ⟨unposted, none⟩ :=
      @first_elsewhere Line env sink.endpoints call body pair 0 (.inl own)
    rw [unposted, none, append_nil, append_nil]
    exact budget

/-- Only the endpoints and the budget of the sink matter. -/
theorem InBudget.of_same {before after : WebhookSink}
    (budget : InBudget before posts drops entries) (endpoints : after.endpoints = before.endpoints)
    (maxAttempts : after.maxAttempts = before.maxAttempts) :
    InBudget after posts drops entries := by
  refine ⟨budget.few, maxAttempts ▸ budget.below, budget.waits.imp_right ?_⟩
  rintro ⟨entry, one, waits⟩
  have known : (endpointOf after entry).isSome := by
    rw [endpointOf, endpoints]
    exact waits.known
  exact ⟨entry, one, known, waits.attempts, waits.failed, waits.undropped⟩

end Budget

section Steps

variable {env}

def pendingFor (world : World Line) (pair : Pair) : List SpoolEntry :=
  (world.sink.spool.getD []).filter fun entry => entry.pair = pair

def retriedFor (entries : List SpoolEntry) (pair : Pair) :
    List (SpoolEntry × PostResult) :=
  (retried call entries).filter fun item => item.1.pair = pair

/-- A pair whose delivery was not yet made is untouched, and every pair is in its budget. -/
structure Tracked (ledger : Ledger Line) : Prop where
  urls : (ledger.world.sink.endpoints.map EndpointConfig.url).Nodup
  fresh : ∀ pair, pair.deliveryId ∉ ledger.calls.map Call.deliveryId →
    postsFor ledger.world pair = [] ∧ dropsFor ledger.world pair = [] ∧
      pendingFor ledger.world pair = []
  budget : ∀ pair, InBudget ledger.world.sink (postsFor ledger.world pair)
    (dropsFor ledger.world pair) (pendingFor ledger.world pair)

variable {result : PostResult} {world} {sink : WebhookSink} {call : Call} {entry : SpoolEntry}

theorem retryPosts_pair {post : Post} (member : post ∈ retryPosts env sink entry result) :
    post.pair = entry.pair := by
  unfold retryPosts at member
  split at member
  · rename_i endpoint found
    have url := find?_some found
    obtain rfl := mem_singleton.mp member
    simpa [SpoolEntry.pair] using url
  · cases member

theorem dropsOf_pair {event : AdnetEvent} {drop : Drop}
    (member : drop ∈ dropsOf sink event entry result) : drop.pair = entry.pair := by
  unfold dropsOf at member
  split_ifs at member
  · obtain rfl := mem_singleton.mp member
    unfold Drop.pair
    cases found : endpointOf sink entry with
    | none => rfl
    | some endpoint =>
      have url := find?_some found
      simpa [SpoolEntry.pair] using url
  · cases member

theorem map_retriedFor (call : Call) (entries : List SpoolEntry) (pair : Pair) :
    (retriedFor call entries pair).map Prod.fst = entries.filter fun entry => entry.pair = pair :=
  map_retried call 0

/-- This is what a call does to a pair. -/
theorem deliver_pair {body : Bytes} (encoded : env.encode call.event = .ok body) :
    postsFor (deliver env world call).2 pair =
        (postsFor world pair ++ (firstPosts env call body 0 world.sink.endpoints).filter
          fun post => post.pair = pair) ++
        (retriedFor call (toRetry world call body) pair).flatMap
          (fun item => retryPosts env world.sink item.1 item.2) ∧
      dropsFor (deliver env world call).2 pair = dropsFor world pair ++
        (retriedFor call (toRetry world call body) pair).flatMap
          (fun item => dropsOf world.sink call.event item.1 item.2) ∧
      pendingFor (deliver env world call).2 pair =
        (retriedFor call (toRetry world call body) pair).flatMap
          fun item => (survivor world.sink item.1 item.2).toList := by
  obtain ⟨grows, memory, _⟩ := @deliver_grows Line env world call body encoded
  refine ⟨?_, ?_, ?_⟩
  · rw [postsFor, grows.posted, filter_append, filter_append, ← append_assoc]
    congr 1
    exact filter_retryEach (fun _ _ _ _ member => retryPosts_pair member) 0
  · rw [dropsFor, grows.dropped, filter_append]
    congr 1
    exact filter_retryEach (fun _ _ _ _ member => dropsOf_pair member) 0
  · have left : (deliver env world call).2.sink.spool.getD [] =
        survivors world.sink call (toRetry world call body) := by
      rw [memory, toRetry]
      cases world.sink.spool <;> rfl
    rw [pendingFor, left]
    exact filter_retryEach (fun _ _ _ _ member => survivor_pair (mem_toList.mp member)) 0

theorem deliver_settings (world : World Line) (call : Call) :
    (deliver env world call).2.sink.endpoints = world.sink.endpoints ∧
      (deliver env world call).2.sink.maxAttempts = world.sink.maxAttempts := by
  cases encoded : env.encode call.event with
  | error text => rw [deliver_unencoded encoded]; exact ⟨rfl, rfl⟩
  | ok body =>
    have grows := (@deliver_grows Line env world call body encoded).1
    exact ⟨grows.endpoints, grows.maxAttempts⟩

/-- A pair of another delivery that was never posted stays untouched. -/
theorem deliver_untouched (other : pair.deliveryId ≠ call.deliveryId)
    (untouched : postsFor world pair = [] ∧ dropsFor world pair = [] ∧ pendingFor world pair = []) :
    postsFor (deliver env world call).2 pair = [] ∧
      dropsFor (deliver env world call).2 pair = [] ∧
      pendingFor (deliver env world call).2 pair = [] := by
  cases encoded : env.encode call.event with
  | error text => rwa [deliver_unencoded encoded]
  | ok body =>
    obtain ⟨unposted, unspooled⟩ :=
      @first_elsewhere Line env world.sink.endpoints call body pair 0 (.inl other)
    have nothing : retriedFor call (toRetry world call body) pair = [] := by
      apply map_eq_nil_iff.mp
      rw [map_retriedFor, toRetry]
      cases spool : world.sink.spool with
      | none => rfl
      | some pending =>
        have waiting := untouched.2.2
        rw [pendingFor, spool, getD_some] at waiting
        rw [map_some, getD_some, drained, filter_append, waiting, unspooled, append_nil]
    obtain ⟨posts, drops, left⟩ := deliver_pair encoded
    rw [posts, drops, left, nothing, unposted, untouched.1, untouched.2.1]
    exact ⟨rfl, rfl, rfl⟩

variable {ledger}

section

variable (tracked : Tracked ledger)
include tracked

variable {body : Bytes}

theorem Tracked.within : WithinBudget ledger := by
  intro call _ url
  have budget := tracked.budget ⟨call.deliveryId, url⟩
  have few := budget.few
  have below := budget.below
  refine ⟨by omega, fun spent => ?_⟩
  exact absurd spent (not_le.mpr below)

/-- Only a delivery that was made has posts. -/
theorem Tracked.made (posted : postsFor (budgetStep env ledger call).world pair ≠ []) :
    ∃ made ∈ (budgetStep env ledger call).calls, made.deliveryId = pair.deliveryId := by
  by_cases own : pair.deliveryId = call.deliveryId
  · exact ⟨call, mem_append_right _ (mem_singleton_self call), own.symm⟩
  · by_cases unmade : pair.deliveryId ∈ ledger.calls.map Call.deliveryId
    · obtain ⟨made, member, same⟩ := mem_map.mp unmade
      exact ⟨made, mem_append_left _ member, same⟩
    · exact absurd (deliver_untouched own (tracked.fresh pair unmade)).1 posted

/-- A pair that failed often enough without being dropped breaks the budget. -/
theorem Tracked.not_within (spent : ledger.world.sink.maxAttempts.toNat ≤
      (failing (postsFor (budgetStep env ledger call).world pair)).length)
    (undropped : dropsFor (budgetStep env ledger call).world pair = []) :
    ¬ WithinBudget (budgetStep env ledger call) := by
  intro within
  have below := (tracked.budget pair).below
  have posted : postsFor (budgetStep env ledger call).world pair ≠ [] := by
    intro nothing
    rw [nothing] at spent
    exact absurd spent (not_le.mpr (zero_lt_of_lt below))
  obtain ⟨made, member, same⟩ := tracked.made posted
  have holds := (within made member pair.url).2
  have maxAttempts := (@deliver_settings Line env ledger.world call).2
  rw [same] at holds
  obtain ⟨drop, one, _⟩ := holds (maxAttempts ▸ spent)
  rw [undropped] at one
  cases one

section

variable (fresh : call.deliveryId ∉ ledger.calls.map Call.deliveryId)
include fresh

/-- With a budget of one post, a failed first post is one too many. -/
theorem Tracked.not_within_first (encoded : env.encode call.event = .ok body)
    (failed : spooled call body 0 ledger.world.sink.endpoints ≠ [])
    (single : ¬ 1 < ledger.world.sink.maxAttempts.toNat) :
    ¬ WithinBudget (budgetStep env ledger call) := by
  obtain ⟨entry, member⟩ := exists_mem_of_ne_nil _ failed
  have there : entry ∈ (spooled call body 0 ledger.world.sink.endpoints).filter
      fun other => other.pair = entry.pair := mem_filter.mpr ⟨member, by simp⟩
  have own : entry.deliveryId = call.deliveryId := by
    by_contra other
    rw [(@first_elsewhere Line env ledger.world.sink.endpoints call body entry.pair 0
      (.inl other)).2] at there
    cases there
  have pair : entry.pair = ⟨call.deliveryId, entry.endpointUrl⟩ := by
    rw [SpoolEntry.pair, own]
  obtain ⟨unposted, undropped, unspooled⟩ :=
    tracked.fresh ⟨call.deliveryId, entry.endpointUrl⟩ fresh
  rw [pair] at there
  rcases @first_once Line env ledger.world.sink.endpoints call body entry.endpointUrl
    tracked.urls 0 with ⟨_, none⟩ | ⟨known, post, posted, entries⟩
  · rw [none] at there
    cases there
  have fails : fails post.result = true := by
    by_contra succeeded
    rw [entries, if_neg succeeded] at there
    cases there
  rw [if_pos fails] at entries
  obtain ⟨posts, drops, _⟩ := deliver_pair encoded
  unfold toRetry at posts drops
  cases spool : ledger.world.sink.spool with
  | none =>
    rw [spool] at posts drops
    apply tracked.not_within
    · rw [budgetStep, posts, unposted, posted, failing]
      simpa [fails, retriedFor, retried, retryEach] using single
    · rw [budgetStep, drops, undropped]
      rfl
  | some pending =>
    rw [spool, map_some, getD_some] at posts
    rw [pendingFor, spool, getD_some] at unspooled
    have one := map_retriedFor call (drained ledger.world call body pending)
      ⟨call.deliveryId, entry.endpointUrl⟩
    rw [drained, filter_append, unspooled, entries] at one
    obtain ⟨item, items, same⟩ := map_eq_singleton_iff.mp one
    have reachable : (endpointOf ledger.world.sink item.1).isSome := by
      rw [same]
      simpa [endpointOf] using known
    obtain ⟨again, reposted, _⟩ := @retryPosts_known Line env _ _ reachable item.2
    intro within
    have few := (within call (mem_append_right _ (mem_singleton_self call)) entry.endpointUrl).1
    have maxAttempts := (@deliver_settings Line env ledger.world call).2
    rw [budgetStep, maxAttempts, posts, unposted, posted, drained, items] at few
    simp only [flatMap_cons, flatMap_nil, append_nil, reposted,
      nil_append, length_append, length_cons, length_nil] at few
    omega

variable (first : spooled call body 0 ledger.world.sink.endpoints ≠ [] →
  1 < ledger.world.sink.maxAttempts.toNat)

include first in
/-- The pairs are in their budgets before the retries of a call. -/
theorem Tracked.before_retries (pair : Pair) :
    InBudget ledger.world.sink (postsFor ledger.world pair ++
        (firstPosts env call body 0 ledger.world.sink.endpoints).filter
          fun post => post.pair = pair) (dropsFor ledger.world pair)
      ((toRetry ledger.world call body).filter fun entry => entry.pair = pair) := by
  have before := @InBudget.first Line env _ _ _ _ _ _ _ (tracked.budget pair) tracked.urls
    (fun own => tracked.fresh pair (own ▸ fresh)) first
  unfold toRetry
  cases spool : ledger.world.sink.spool with
  | none => exact ⟨before.few, before.below, .inl rfl⟩
  | some pending =>
    rw [spool] at before
    exact before

include first in
/-- The failure that uses the budget up leaves its entry in the spool. -/
theorem Tracked.not_within_retry (encoded : env.encode call.event = .ok body)
    {pending : List SpoolEntry}
    (spool : ledger.world.sink.spool = some pending) {item : SpoolEntry × PostResult}
    (member : item ∈ retried call (drained ledger.world call body pending))
    (failed : fails item.2 = true)
    (spent : ¬ item.1.attempts.toNat + 1 < ledger.world.sink.maxAttempts.toNat) :
    ¬ WithinBudget (budgetStep env ledger call) := by
  have before := @Tracked.before_retries Line env _ _ tracked body fresh first item.1.pair
  rw [← toRetry_some spool] at member
  have retries := map_retriedFor call (toRetry ledger.world call body) item.1.pair
  have there : item ∈ retriedFor call (toRetry ledger.world call body) item.1.pair :=
    mem_filter.mpr ⟨member, by simp⟩
  obtain ⟨posts, drops, _⟩ := deliver_pair encoded
  rcases before.waits with none | ⟨entry, one, waits⟩
  · rw [map_eq_nil_iff.mp (retries.trans none)] at there
    cases there
  · obtain ⟨only, items, same⟩ := map_eq_singleton_iff.mp (retries.trans one)
    rw [items, mem_singleton] at there
    subst there same
    have stays := waits_survives waits before.below failed
    obtain ⟨post, posted, outcome⟩ := @retryPosts_known Line env _ _ waits.known item.2
    rw [items] at posts drops
    simp only [flatMap_cons, flatMap_nil, append_nil, posted] at posts
    simp only [flatMap_cons, flatMap_nil, append_nil, dropsOf_survivor stays] at drops
    apply tracked.not_within
    · rw [budgetStep, posts, failing_append, length_append, ← waits.attempts,
        show failing [post] = [post] by simp [failing, outcome, failed]]
      exact not_lt.mp spent
    · exact drops.trans waits.undropped

/-- A call that spares the budget keeps every pair in it. -/
theorem Tracked.step (spares : SparesBudget env ledger call) :
    Tracked (budgetStep env ledger call) := by
  obtain ⟨endpoints, maxAttempts⟩ := @deliver_settings Line env ledger.world call
  refine ⟨endpoints ▸ tracked.urls, fun pair unmade => ?_, fun pair => ?_⟩
  · have parts : pair.deliveryId ∉ ledger.calls.map Call.deliveryId ∧
        pair.deliveryId ≠ call.deliveryId := by
      simpa [budgetStep, not_or] using unmade
    exact deliver_untouched parts.2 (tracked.fresh pair parts.1)
  · refine @InBudget.of_same _ _ _ ledger.world.sink _ ?_ endpoints maxAttempts
    unfold budgetStep
    cases encoded : env.encode call.event with
    | error text =>
      rw [deliver_unencoded encoded]
      exact tracked.budget pair
    | ok body =>
      obtain ⟨first, again⟩ := spares body encoded
      have before := @Tracked.before_retries Line env _ _ tracked body fresh first pair
      obtain ⟨posts, drops, left⟩ := deliver_pair encoded
      rw [posts, drops, left]
      refine before.retry call.event (map_retriedFor call _ pair) fun item member => ?_
      have retried := mem_of_mem_filter member
      unfold toRetry at retried
      cases spool : ledger.world.sink.spool with
      | none =>
        rw [spool] at retried
        cases retried
      | some pending =>
        rw [spool] at retried
        exact again pending spool item retried

end

end

end Steps

theorem startLedger_tracked {endpoints : List EndpointConfig}
    (urls : (endpoints.map EndpointConfig.url).Nodup) (spooled : Bool) (maxAttempts : UInt32) :
    Tracked (startLedger env endpoints spooled maxAttempts) := by
  have positive : 0 < (max maxAttempts 1).toNat := by
    rw [show max maxAttempts 1 = if maxAttempts ≤ 1 then 1 else maxAttempts from rfl]
    split_ifs with small
    · decide
    · exact zero_lt_of_lt (UInt32.lt_iff_toNat_lt.mp (UInt32.not_le.mp small))
  have budget : ∀ sink : WebhookSink, sink.maxAttempts = max maxAttempts 1 →
      InBudget sink [] [] [] := fun sink same =>
    ⟨zero_le _, by rw [same]; exact positive, .inl rfl⟩
  cases spooled with
  | true | false => exact ⟨urls, fun _ _ => ⟨rfl, rfl, rfl⟩, fun _ => budget _ rfl⟩

/-- Calls with distinct ids find their id unused. -/
theorem guarded_fresh {ledger : Ledger Line} {calls : List Call}
    (distinct : ((ledger.calls ++ calls).map Call.deliveryId).Nodup) :
    Guarded (budgetStep env)
      (fun ledger call => call.deliveryId ∉ ledger.calls.map Call.deliveryId) ledger calls := by
  induction calls generalizing ledger with
  | nil => trivial
  | cons call rest ih =>
    refine ⟨?_, ih ?_⟩
    · rw [map_append, nodup_append] at distinct
      exact fun member => distinct.2.2 _ member _ mem_cons_self rfl
    · rw [budgetStep, append_assoc]
      exact distinct

variable {env}

theorem withinBudget_iff {ledger : Ledger Line} {call : Call} (tracked : Tracked ledger)
    (fresh : call.deliveryId ∉ ledger.calls.map Call.deliveryId) :
    WithinBudget (budgetStep env ledger call) ↔ SparesBudget env ledger call := by
  constructor
  · intro within body encoded
    have first : spooled call body 0 ledger.world.sink.endpoints ≠ [] →
        1 < ledger.world.sink.maxAttempts.toNat := by
      intro failed
      by_contra single
      exact tracked.not_within_first fresh encoded failed single within
    refine ⟨first, fun pending spool item member failed => ?_⟩
    by_contra spent
    exact tracked.not_within_retry fresh first encoded spool member failed spent within
  · intro spares
    exact (tracked.step fresh spares).within

/-- A sink keeps to its budget exactly as long as no delivery fails as often as the budget says. -/
theorem retry_budget_iff (env : Environment Line) {endpoints : List EndpointConfig}
    (urls : (endpoints.map EndpointConfig.url).Nodup) (spooled : Bool) (maxAttempts : UInt32)
    {calls : List Call} (distinct : (calls.map Call.deliveryId).Nodup) :
    Always (budgetStep env) WithinBudget
        (startLedger env endpoints spooled maxAttempts) calls ↔
      Guarded (budgetStep env) (SparesBudget env)
        (startLedger env endpoints spooled maxAttempts) calls := by
  have start := startLedger_tracked env urls spooled maxAttempts
  apply always_iff_guarded_of (budgetStep env) Tracked
    (fun ledger call tracked _ fresh => withinBudget_iff tracked fresh)
    (fun ledger call tracked _ fresh spares => tracked.step fresh spares)
    start start.within
  apply guarded_fresh env
  cases spooled <;> exact distinct

def failedCall (deliveryId : String) : Call where
  event := sampleEvent deliveryId
  deliveryId := deliveryId
  first _ := .ok .failed
  again _ := .ok .failed

theorem retry_budget_kept :
    Always (budgetStep sampleEnvironment) WithinBudget
      (startLedger sampleEnvironment [sampleEndpoint] true 3) [failedCall "first"] := by
  apply (retry_budget_iff sampleEnvironment (by decide) true 3 (by decide)).mpr
  refine ⟨?_, trivial⟩
  intro body encoded
  cases encoded
  refine ⟨fun _ => by decide, ?_⟩
  intro pending spool
  cases spool
  decide

/-- With a budget of two posts the second call makes the third post, and the drop of the first
delivery carries the event of the second. -/
theorem retry_budget_overrun :
    ¬ Always (budgetStep sampleEnvironment) WithinBudget
        (startLedger sampleEnvironment [sampleEndpoint] true 2)
        [failedCall "first", failedCall "second"] ∧
      (run (budgetStep sampleEnvironment) (startLedger sampleEnvironment [sampleEndpoint] true 2)
        [failedCall "first", failedCall "second"]).world.drops.map
          (fun drop => (drop.deliveryId, drop.event)) =
        [("first", (failedCall "second").event)] := by
  refine ⟨fun always => ?_, by rfl⟩
  have within := Always.final (budgetStep sampleEnvironment) always
  have few := (within (failedCall "first") mem_cons_self "http://hook").1
  revert few
  decide +kernel

end A3Net.Webhook
