/-
This file says what one delivery does to the sink, the spool file and the history: the first posts
add entries, and the retries keep the entries that survive.
-/

import A3Net.Construction.Webhook.Sink
import A3Net.Machine.Text

namespace A3Net.Webhook

open List Option Machine Cryptography

def fails : PostResult → Bool
  | .ok .failed | .error _ => true
  | _ => false

variable {Line : Type} (env : Environment Line)

/-- These entries are spooled after the first posts of a call. -/
def spooled (call : Call) (body : Bytes) : Nat → List EndpointConfig → List SpoolEntry
  | _, [] => []
  | index, endpoint :: rest =>
    (if roomMatches call.event endpoint && fails (call.first index) then
      [⟨call.deliveryId, endpoint.url, body, 1⟩] else []) ++ spooled call body (index + 1) rest

def firstPosts (call : Call) (body : Bytes) : Nat → List EndpointConfig → List Post
  | _, [] => []
  | index, endpoint :: rest =>
    (if roomMatches call.event endpoint then
      [⟨⟨call.deliveryId, endpoint.url⟩, body, env.signBody endpoint.secret body,
        call.first index⟩] else []) ++ firstPosts call body (index + 1) rest

variable (sink : WebhookSink) (entry : SpoolEntry)

def endpointOf : Option EndpointConfig :=
  sink.endpoints.find? fun endpoint => endpoint.url = entry.endpointUrl

/-- An entry survives when its endpoint is known, its retry fails and its budget is not spent. -/
def survivor (result : PostResult) : Option SpoolEntry :=
  if (endpointOf sink entry).isSome ∧ fails result ∧ ¬ sink.maxAttempts < entry.attempts + 1 then
    some {entry with attempts := entry.attempts + 1}
  else none

theorem survivor_pair {sink : WebhookSink} {entry kept : SpoolEntry} {result : PostResult}
    (stays : survivor sink entry result = some kept) : kept.pair = entry.pair := by
  unfold survivor at stays
  split_ifs at stays
  obtain rfl := some_inj.mp stays
  rfl

def retryPosts (result : PostResult) : List Post :=
  match endpointOf sink entry with
  | some endpoint => [⟨⟨entry.deliveryId, endpoint.url⟩, entry.body,
      env.signBody endpoint.secret entry.body, result⟩]
  | none => []

def retryEach {Item : Type} (one : SpoolEntry → PostResult → List Item) (call : Call) :
    Nat → List SpoolEntry → List Item
  | _, [] => []
  | index, entry :: rest => one entry (call.again index) ++ retryEach one call (index + 1) rest

def survivors (call : Call) (entries : List SpoolEntry) : List SpoolEntry :=
  retryEach (fun entry result => (survivor sink entry result).toList) call 0 entries

/-- The sink keeps its settings, and the history grows at its ends. -/
structure Grows (before after : World Line) (posts : List Post) (drops : List Drop)
    (failed finished : List Pair) : Prop where
  endpoints : after.sink.endpoints = before.sink.endpoints
  maxAttempts : after.sink.maxAttempts = before.sink.maxAttempts
  handler : after.sink.droppedHandler = before.sink.droppedHandler
  posted : after.posted = before.posted ++ posts
  dropped : after.drops = before.drops ++ drops
  failures : after.failed = before.failed ++ failed
  completed : after.finished = before.finished ++ finished

theorem kept {Item : Type} (items : List Item) : items = items ++ [] :=
  (append_nil items).symm

theorem Grows.refl (world : World Line) : Grows world world [] [] [] [] :=
  ⟨rfl, rfl, rfl, kept _, kept _, kept _, kept _⟩

theorem Grows.trans {before middle after : World Line} {posts morePosts : List Post}
    {drops moreDrops : List Drop} {failed moreFailed finished moreFinished : List Pair}
    (first : Grows before middle posts drops failed finished)
    (second : Grows middle after morePosts moreDrops moreFailed moreFinished) :
    Grows before after (posts ++ morePosts) (drops ++ moreDrops) (failed ++ moreFailed)
      (finished ++ moreFinished) where
  endpoints := second.endpoints.trans first.endpoints
  maxAttempts := second.maxAttempts.trans first.maxAttempts
  handler := second.handler.trans first.handler
  posted := by rw [second.posted, first.posted, append_assoc]
  dropped := by rw [second.dropped, first.dropped, append_assoc]
  failures := by rw [second.failures, first.failures, append_assoc]
  completed := by rw [second.completed, first.completed, append_assoc]

section First

/-- The entries are spooled in memory and in the file. -/
structure Spools (before after : World Line) (entries : List SpoolEntry) : Prop where
  memory : after.sink.spool = before.sink.spool.map (· ++ entries)
  lines : before.sink.spool.isSome →
    after.file.getD [] = before.file.getD [] ++ entries.map env.lines.encode
  silent : before.sink.spool = none → after.file = before.file

theorem Spools.refl (world : World Line) : Spools env world world [] where
  memory := by
    cases world.sink.spool <;> simp
  lines _ := kept _
  silent _ := rfl

variable {env}

theorem Spools.trans {before middle after : World Line} {first second : List SpoolEntry}
    (one : Spools env before middle first) (other : Spools env middle after second) :
    Spools env before after (first ++ second) where
  memory := by
    rw [other.memory, one.memory, Option.map_map]
    congr 1
    funext pending
    exact append_assoc pending first second
  lines there := by
    have later : middle.sink.spool.isSome := by
      rw [one.memory, isSome_map]
      exact there
    rw [other.lines later, one.lines there, map_append, append_assoc]
  silent absent := by
    have later : middle.sink.spool = none := by
      rw [one.memory, absent, map_none]
    rw [other.silent later, one.silent absent]

/-- Only the spool and the file are looked at. -/
theorem Spools.of_same {before after : World Line} (spool : after.sink.spool = before.sink.spool)
    (file : after.file = before.file) : Spools env before after [] where
  memory := by
    rw [spool]
    cases before.sink.spool <;> simp
  lines _ := by rw [file, map_nil, append_nil]
  silent _ := file

variable (world : World Line) (entry : SpoolEntry)

theorem push_spools : Spools env world (world.push env entry) [entry] := by
  unfold World.push
  cases spool : world.sink.spool with
  | none =>
    exact ⟨by simp [spool], fun there => by simp [spool] at there, fun _ => rfl⟩
  | some pending =>
    exact ⟨by simp [spool, World.setSpool], fun _ => rfl, fun absent => by simp [spool] at absent⟩

theorem push_grows : Grows world (world.push env entry) [] [] [] [] := by
  unfold World.push
  split
  · exact ⟨rfl, rfl, rfl, kept _, kept _, kept _, kept _⟩
  · exact Grows.refl world

variable (call : Call) (body : Bytes)

/-- This is the world before a failed delivery is spooled. -/
def failedWorld (env : Environment Line) (call : Call) (body : Bytes)
    (endpoint : EndpointConfig) (result : PostResult) (world : World Line) :
    World Line :=
  ((world.post env endpoint call.deliveryId body result).record .failed).fail
    ⟨call.deliveryId, endpoint.url⟩

theorem settle_failed {endpoint : EndpointConfig} {result : PostResult} {progress : Progress Line}
    (failed : fails result = true) :
    (settle env call body endpoint result progress).world =
      (failedWorld env call body endpoint result progress.world).push
        env ⟨call.deliveryId, endpoint.url, body, 1⟩ := by
  rcases result with error | outcome
  · rfl
  · cases outcome with
    | accepted | rejected => cases failed
    | failed => rfl

variable {endpoint : EndpointConfig} (result : PostResult) {progress : Progress Line}

theorem settle_spools :
    Spools env progress.world
      (settle env call body endpoint result progress).world
      (if fails result then [⟨call.deliveryId, endpoint.url, body, 1⟩] else []) := by
  cases failed : fails result with
  | true =>
    rw [settle_failed call body failed]
    have first : Spools env progress.world
        (failedWorld env call body endpoint result progress.world) [] :=
      Spools.of_same rfl rfl
    exact first.trans (push_spools _ _)
  | false =>
    unfold settle
    split
    · exact Spools.of_same rfl rfl
    · exact Spools.of_same rfl rfl
    · cases failed
    · cases failed

theorem settle_grows :
    Grows progress.world (settle env call body endpoint result progress).world
      [⟨⟨call.deliveryId, endpoint.url⟩, body, env.signBody endpoint.secret body, result⟩]
      [] (if fails result then [⟨call.deliveryId, endpoint.url⟩] else []) [] := by
  cases failed : fails result with
  | true =>
    rw [settle_failed call body failed]
    have first : Grows progress.world
        (failedWorld env call body endpoint result progress.world)
        [⟨⟨call.deliveryId, endpoint.url⟩, body, env.signBody endpoint.secret body,
          result⟩] [] [⟨call.deliveryId, endpoint.url⟩] [] :=
      ⟨rfl, rfl, rfl, rfl, kept _, rfl, kept _⟩
    exact first.trans (push_grows _ _)
  | false =>
    unfold settle
    split
    · exact ⟨rfl, rfl, rfl, rfl, kept _, kept _, kept _⟩
    · exact ⟨rfl, rfl, rfl, rfl, kept _, kept _, kept _⟩
    · cases failed
    · cases failed

theorem attemptAll_spools (index : Nat) (endpoints : List EndpointConfig)
    (progress : Progress Line) :
    Spools env progress.world
      (attemptAll env call body index endpoints progress).world
      (spooled call body index endpoints) := by
  induction endpoints generalizing index progress with
  | nil => exact Spools.refl env progress.world
  | cons endpoint rest ih =>
    refine Spools.trans ?_ (ih (index + 1) _)
    cases roomMatches call.event endpoint with
    | true => exact settle_spools call body (call.first index)
    | false => exact Spools.refl env progress.world

theorem attemptAll_grows (index : Nat) (endpoints : List EndpointConfig)
    (progress : Progress Line) :
    Grows progress.world (attemptAll env call body index endpoints progress).world
      (firstPosts env call body index endpoints) []
      ((spooled call body index endpoints).map SpoolEntry.pair) [] := by
  induction endpoints generalizing index progress with
  | nil => exact Grows.refl progress.world
  | cons endpoint rest ih =>
    unfold attemptAll spooled firstPosts
    cases roomMatches call.event endpoint with
    | true =>
      have whole := (settle_grows call body (call.first index)).trans
        (ih (index + 1) (settle env call body endpoint (call.first index) progress))
      cases failed : fails (call.first index) <;> simpa [failed, SpoolEntry.pair] using whole
    | false => exact ih (index + 1) progress

end First

variable {env} (sink : WebhookSink)

/-- The handler is called when an entry goes without being accepted. -/
def dropsOf (event : AdnetEvent) (entry : SpoolEntry) (result : PostResult) :
    List Drop :=
  if sink.droppedHandler ∧ survivor sink entry result = none ∧
      ¬ ((endpointOf sink entry).isSome ∧ result = .ok .accepted) then
    [⟨event, (endpointOf sink entry).getD
      {url := entry.endpointUrl, secret := [], requestTimeout := 0},
      entry.deliveryId, entry.attempts⟩]
  else []

def leaving (entry : SpoolEntry) (result : PostResult) : List Pair :=
  if survivor sink entry result = none then [entry.pair] else []

variable (world : World Line) {result : PostResult} (event : AdnetEvent) (entry : SpoolEntry)

theorem fireDropped_grows :
    Grows world (world.fireDropped event entry) []
      (if world.sink.droppedHandler then
        [⟨event, (endpointOf world.sink entry).getD
          {url := entry.endpointUrl, secret := [], requestTimeout := 0},
          entry.deliveryId, entry.attempts⟩] else []) [] [] := by
  unfold World.fireDropped
  split
  · exact ⟨rfl, rfl, rfl, kept _, rfl, kept _, kept _⟩
  · exact Grows.refl world

/-- A retry leaves the spool and the file alone. -/
theorem retry_disk (call : Call) (entry : SpoolEntry) (result : PostResult) (world : World Line) :
    (retry env call entry result world).2.sink.spool = world.sink.spool ∧
      (retry env call entry result world).2.file = world.file := by
  fun_cases retry env call entry result world with
  | case1 | case3 | case4 | case6 =>
    unfold World.fireDropped
    split <;> exact ⟨rfl, rfl⟩
  | case2 | case5 | case7 => exact ⟨rfl, rfl⟩

theorem retry_failed {call : Call} {entry : SpoolEntry} {world : World Line}
    {endpoint : EndpointConfig} (known : endpointOf world.sink entry = some endpoint)
    (failed : fails result = true) :
    retry env call entry result world =
      let posted := world.post env endpoint entry.deliveryId entry.body result
      if world.sink.maxAttempts < entry.attempts + 1 then
        (none, ((posted.finish entry).record .dropped).fireDropped call.event entry)
      else (some {entry with attempts := entry.attempts + 1}, posted) := by
  unfold endpointOf at known
  unfold retry
  rw [known]
  rcases result with error | outcome
  · rfl
  · cases outcome with
    | accepted | rejected => cases failed
    | failed => rfl

theorem record_grows (kind : StatEvent) : Grows world (world.record kind) [] [] [] [] :=
  ⟨rfl, rfl, rfl, kept _, kept _, kept _, kept _⟩

theorem finish_grows : Grows world (world.finish entry) [] [] [] [entry.pair] :=
  ⟨rfl, rfl, rfl, kept _, kept _, kept _, rfl⟩

/-- An entry that goes without being accepted is finished, and the handler hears of it. -/
theorem drop_grows {world posted recorded : World Line} {posts : List Post} {event : AdnetEvent}
    {entry : SpoolEntry} (grows : Grows world posted posts [] [] [])
    (records : Grows (posted.finish entry) recorded [] [] [] [])
    (gone : survivor world.sink entry result = none)
    (unaccepted : ¬ ((endpointOf world.sink entry).isSome ∧ result = .ok .accepted)) :
    Grows world (recorded.fireDropped event entry) posts
      (dropsOf world.sink event entry result) [] (leaving world.sink entry result) := by
  have before := (grows.trans (finish_grows posted entry)).trans records
  have whole := before.trans (fireDropped_grows recorded event entry)
  have endpoint : endpointOf recorded.sink entry = endpointOf world.sink entry := by
    rw [endpointOf, before.endpoints, endpointOf]
  rw [endpoint, before.handler] at whole
  rw [dropsOf, leaving, gone]
  simpa [unaccepted] using whole

/-- One retry posts to a known endpoint, and an entry that does not survive is finished. -/
theorem retry_grows (call : Call) (entry : SpoolEntry) (result : PostResult) (world : World Line) :
    (retry env call entry result world).1 = survivor world.sink entry result ∧
      Grows world (retry env call entry result world).2
        (retryPosts env world.sink entry result)
        (dropsOf world.sink call.event entry result) [] (leaving world.sink entry result) := by
  cases known : endpointOf world.sink entry with
  | none =>
    have gone : survivor world.sink entry result = none := by simp [survivor, known]
    have skipped : retry env call entry result world =
        (none, ((world.finish entry).record .dropped).fireDropped call.event entry) := by
      unfold endpointOf at known
      rw [retry, known]
    rw [skipped, gone, show retryPosts env world.sink entry result = [] by
      rw [retryPosts, known]]
    exact ⟨rfl, drop_grows (Grows.refl world) (record_grows _ .dropped) gone (by simp [known])⟩
  | some endpoint =>
    have posted : Grows world (world.post env endpoint entry.deliveryId entry.body result)
        (retryPosts env world.sink entry result) [] [] [] := by
      rw [retryPosts, known]
      exact ⟨rfl, rfl, rfl, rfl, kept _, kept _, kept _⟩
    cases failed : fails result with
    | true =>
      have unaccepted : result ≠ .ok .accepted := by
        rintro rfl
        cases failed
      rw [retry_failed known failed]
      split_ifs with spent
      · have gone : survivor world.sink entry result = none := by simp [survivor, spent]
        exact ⟨gone.symm, drop_grows posted (record_grows _ .dropped) gone (by simp [unaccepted])⟩
      · have stays : survivor world.sink entry result =
            some {entry with attempts := entry.attempts + 1} := by
          simp [survivor, known, failed, spent]
        rw [dropsOf, leaving, stays]
        exact ⟨rfl, by simpa using posted⟩
    | false =>
      have gone : survivor world.sink entry result = none := by simp [survivor, failed]
      rcases result with error | outcome
      · cases failed
      · have found := known
        unfold endpointOf at found
        cases outcome with
        | failed => cases failed
        | accepted =>
          rw [retry, found, gone]
          rw [dropsOf, leaving, gone, known]
          have whole := (posted.trans (finish_grows _ entry)).trans (record_grows _ .accepted)
          simpa using whole
        | rejected status =>
          rw [retry, found, gone]
          exact ⟨rfl, drop_grows posted
            ((record_grows _ .rejected).trans (record_grows _ .dropped)) gone (by simp)⟩

section Settings

variable {before after : World Line} {posts : List Post} {drops : List Drop}
  {failed finished : List Pair} (grows : Grows before after posts drops failed finished)
include grows

theorem Grows.endpointOf (entry : SpoolEntry) :
    Webhook.endpointOf after.sink entry = Webhook.endpointOf before.sink entry := by
  rw [Webhook.endpointOf, grows.endpoints, Webhook.endpointOf]

theorem Grows.survivor : Webhook.survivor after.sink = Webhook.survivor before.sink := by
  funext entry result
  rw [Webhook.survivor, grows.endpointOf, grows.maxAttempts, Webhook.survivor]

theorem Grows.retryPosts :
    Webhook.retryPosts env after.sink = Webhook.retryPosts env before.sink := by
  funext entry result
  rw [Webhook.retryPosts, grows.endpointOf, Webhook.retryPosts]

theorem Grows.leaving : Webhook.leaving after.sink = Webhook.leaving before.sink := by
  funext entry result
  rw [Webhook.leaving, grows.survivor, Webhook.leaving]

theorem Grows.dropsOf : Webhook.dropsOf after.sink = Webhook.dropsOf before.sink := by
  funext event entry result
  rw [Webhook.dropsOf, grows.survivor, grows.endpointOf, grows.handler, Webhook.dropsOf]

end Settings

/-- The retries go through the entries one after the other. -/
theorem retryAll_grows (call : Call) (index : Nat) (entries : List SpoolEntry)
    (world : World Line) :
    (retryAll env call index entries world).1 =
        retryEach (fun entry result => (survivor world.sink entry result).toList) call index
          entries ∧
      Grows world (retryAll env call index entries world).2
        (retryEach (retryPosts env world.sink) call index entries)
        (retryEach (dropsOf world.sink call.event) call index entries) []
        (retryEach (leaving world.sink) call index entries) := by
  induction entries generalizing index world with
  | nil => exact ⟨rfl, Grows.refl world⟩
  | cons entry rest ih =>
    obtain ⟨stays, grows⟩ := @retry_grows Line env call entry (call.again index) world
    obtain ⟨others, later⟩ := ih (index + 1) (retry env call entry (call.again index) world).2
    rw [grows.survivor] at others
    rw [grows.retryPosts, grows.dropsOf, grows.leaving] at later
    unfold retryAll retryEach
    exact ⟨by simp only [stays, others], by simpa using grows.trans later⟩

theorem retryAll_disk (call : Call) (index : Nat) (entries : List SpoolEntry) (world : World Line) :
    (retryAll env call index entries world).2.sink.spool = world.sink.spool ∧
      (retryAll env call index entries world).2.file = world.file := by
  induction entries generalizing index world with
  | nil => exact ⟨rfl, rfl⟩
  | cons entry rest ih =>
    have first := @retry_disk Line env call entry (call.again index) world
    have later := ih (index + 1) (retry env call entry (call.again index) world).2
    exact ⟨later.1.trans first.1, later.2.trans first.2⟩

theorem setSpool_grows (world : World Line) (pending : List SpoolEntry) :
    Grows world (world.setSpool pending) [] [] [] [] :=
  ⟨rfl, rfl, rfl, kept _, kept _, kept _, kept _⟩

theorem flush_grows (world : World Line) (pending : List SpoolEntry) :
    Grows world (world.flush env pending) [] [] [] [] :=
  ⟨rfl, rfl, rfl, kept _, kept _, kept _, kept _⟩

/-- The spool holds the survivors, but without a survivor the file keeps its lines. -/
theorem drainSpool_survivors (call : Call) (world : World Line) {drained : List SpoolEntry}
    (spool : world.sink.spool.getD [] = drained) :
    Grows world (drainSpool env call world)
        (retryEach (retryPosts env world.sink) call 0 drained)
        (retryEach (dropsOf world.sink call.event) call 0 drained) []
        (retryEach (leaving world.sink) call 0 drained) ∧
      (drainSpool env call world).sink.spool =
        world.sink.spool.map (fun _ => survivors world.sink call drained) ∧
      (drainSpool env call world).file.getD [] =
        if survivors world.sink call drained = [] then world.file.getD []
        else (survivors world.sink call drained).map env.lines.encode := by
  unfold drainSpool
  cases there : world.sink.spool with
  | none =>
    obtain rfl : [] = drained := by rw [← spool, there, getD_none]
    exact ⟨Grows.refl world, there, rfl⟩
  | some pending =>
    obtain rfl : pending = drained := by rw [← spool, there, getD_some]
    obtain ⟨stay, grows⟩ := @retryAll_grows Line env call 0 pending (world.setSpool [])
    obtain ⟨memory, file⟩ := @retryAll_disk Line env call 0 pending (world.setSpool [])
    have taken := setSpool_grows world []
    rw [taken.retryPosts, taken.dropsOf, taken.leaving] at grows
    have left : (retryAll env call 0 pending (world.setSpool [])).1 =
        survivors world.sink call pending := stay
    have whole := taken.trans grows
    dsimp only
    rw [left]
    cases kept : survivors world.sink call pending with
    | nil =>
      refine ⟨by simpa using whole, memory, ?_⟩
      exact congrArg (fun lines => lines.getD []) file
    | cons first others =>
      refine ⟨?_, rfl, rfl⟩
      simpa using whole.trans (@flush_grows Line env _ (first :: others))

variable {world} {call : Call} {body : Bytes}

theorem deliver_unencoded {text : String} (unencoded : env.encode call.event = .error text) :
    (deliver env world call).2 = world := by
  rw [deliver, unencoded]

/-- These entries are retried by a call. -/
def drained (world : World Line) (call : Call) (body : Bytes) (pending : List SpoolEntry) :
    List SpoolEntry :=
  pending ++ spooled call body 0 world.sink.endpoints

/-- Without a spool nothing is retried. -/
def toRetry (world : World Line) (call : Call) (body : Bytes) : List SpoolEntry :=
  (world.sink.spool.map (drained world call body)).getD []

theorem toRetry_some {pending : List SpoolEntry} (spool : world.sink.spool = some pending) :
    toRetry world call body = drained world call body pending := by
  rw [toRetry, spool]
  rfl

/-- The first posts leave this world to the retries. -/
def attempted (env : Environment Line) (world : World Line) (call : Call) (body : Bytes) :
    World Line :=
  (attemptAll env call body 0 world.sink.endpoints {world}).world

theorem attempted_spools :
    Spools env world (attempted env world call body) (spooled call body 0 world.sink.endpoints) :=
  attemptAll_spools call body 0 world.sink.endpoints {world}

/-- A delivery retries the old and the new entries. -/
theorem deliver_grows (encoded : env.encode call.event = .ok body) :
    Grows world (deliver env world call).2
        (firstPosts env call body 0 world.sink.endpoints ++
          retryEach (retryPosts env world.sink) call 0 (toRetry world call body))
        (retryEach (dropsOf world.sink call.event) call 0 (toRetry world call body))
        ((spooled call body 0 world.sink.endpoints).map SpoolEntry.pair)
        (retryEach (leaving world.sink) call 0 (toRetry world call body)) ∧
      (deliver env world call).2.sink.spool =
        world.sink.spool.map (fun _ => survivors world.sink call (toRetry world call body)) ∧
      (deliver env world call).2.file.getD [] =
        if survivors world.sink call (toRetry world call body) = [] then
          (attempted env world call body).file.getD []
        else (survivors world.sink call (toRetry world call body)).map env.lines.encode := by
  have first : Grows world (attempted env world call body) _ _ _ _ :=
    attemptAll_grows call body 0 world.sink.endpoints {world}
  have spool := (@attempted_spools Line env world call body).memory
  have drains : (deliver env world call).2 =
      drainSpool env call (attempted env world call body) := by
    rw [deliver, encoded]
    dsimp only
    split_ifs <;> rfl
  have there : (attempted env world call body).sink.spool.getD [] =
      toRetry world call body := congrArg (getD · []) spool
  obtain ⟨grows, memory, file⟩ := @drainSpool_survivors Line env call _ _ there
  have same : survivors (attempted env world call body).sink = survivors world.sink := by
    funext call entries
    rw [survivors, first.survivor, survivors]
  rw [first.retryPosts, first.dropsOf, first.leaving] at grows
  rw [same] at memory file
  rw [spool, Option.map_map] at memory
  rw [drains]
  exact ⟨by simpa using first.trans grows, memory, file⟩

/-- This is the text of an event whose fields are strings. -/
def eventText (fields : List (String × Json)) : List Char :=
  jsonObject (("event", jsonString "announcement".toList) ::
    fields.map (Prod.map id fun value => jsonString (value.asStr.getD "").toList))

def sampleEvent (deliveryId : String) : AdnetEvent :=
  .announcement (.object [("delivery", .string deliveryId)])

/-- The two texts that are signed have these codes under the empty secret. -/
def sampleEnvironment : Environment SpoolEntry where
  lines := .plain _
  encode
    | .announcement (.object fields) => .ok (utf8Chars (eventText fields))
    | _ => .error "can only flatten structs and maps"
  signBody _ body :=
    if body = utf8Chars (eventText [("delivery", .string "first")]) then
      "sha256=a8f850088ce04c0b7eed227f5b665b27585b1a679b81591b4db1c96c584f5d38"
    else "sha256=e670993293a31a513ab3ef648992b181fdbd0ba5af2e6946b1b5fb95f0b31b89"

def sampleEndpoint : EndpointConfig where
  url := "http://hook"
  secret := []

end A3Net.Webhook
