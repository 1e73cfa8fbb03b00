import A3Net.Cryptography.Bytes
import A3Net.Machine.Json

namespace A3Net.Webhook

open Machine

/-- The timeout counts milliseconds. -/
structure EndpointConfig where
  url : String
  secret : Bytes
  roomFilter : Option String := none
  requestTimeout : Nat := 5000

inductive AdnetEvent where
  | announcement (payload : Json)

inductive DeliveryOutcome where
  | accepted
  | rejected (status : UInt16)
  | failed
deriving DecidableEq

inductive WebhookError where
  | invalidUrl (text : String)
  | transport (text : String)
  | spoolParse (text : String)
deriving DecidableEq

abbrev PostResult := Except WebhookError DeliveryOutcome

structure SpoolEntry where
  deliveryId : String
  endpointUrl : String
  body : Bytes
  attempts : UInt32

structure DeliveryStats where
  accepted : UInt64 := 0
  rejected : UInt64 := 0
  failed : UInt64 := 0
  dropped : UInt64 := 0

inductive StatEvent where
  | accepted | rejected | failed | dropped

/-- This is what the sink takes from its surroundings. -/
structure Environment (Line : Type) where
  lines : LineFormat SpoolEntry Line
  encode : AdnetEvent → Except String Bytes
  signBody : Bytes → Bytes → String

/-- A delivery goes to an endpoint. -/
structure Pair where
  deliveryId : String
  url : String
deriving DecidableEq

structure Post where
  pair : Pair
  body : Bytes
  signature : String
  result : PostResult

structure Drop where
  event : AdnetEvent
  endpoint : EndpointConfig
  deliveryId : String
  attempts : UInt32

/-- The spool of a sink without a path is missing. -/
structure WebhookSink where
  endpoints : List EndpointConfig
  spool : Option (List SpoolEntry)
  maxAttempts : UInt32
  stats : DeliveryStats := {}
  droppedHandler : Bool := false

/-- The file has one line for each entry. The other fields are history: the posts, the calls of the
handler, the pairs whose first post failed, and the pairs that were accepted, rejected or dropped
after that. -/
structure World (Line : Type) where
  sink : WebhookSink
  file : Option (List Line) := none
  posted : List Post := []
  drops : List Drop := []
  failed : List Pair := []
  finished : List Pair := []

/-- The surroundings decide what comes of the posts, the first ones by the number of the endpoint
and the retries by the number of the entry. -/
structure Call where
  event : AdnetEvent
  deliveryId : String
  first : Nat → PostResult
  again : Nat → PostResult

def SpoolEntry.pair (entry : SpoolEntry) : Pair := ⟨entry.deliveryId, entry.endpointUrl⟩

def DeliveryStats.record (stats : DeliveryStats) : StatEvent → DeliveryStats
  | .accepted => {stats with accepted := stats.accepted + 1}
  | .rejected => {stats with rejected := stats.rejected + 1}
  | .failed => {stats with failed := stats.failed + 1}
  | .dropped => {stats with dropped := stats.dropped + 1}

def roomMatches (event : AdnetEvent) (endpoint : EndpointConfig) : Bool :=
  match endpoint.roomFilter, event with
  | none, _ => true
  | some filter, .announcement payload => (payload.get "room_id").bind Json.asStr = some filter

namespace World

variable {Line : Type} (env : Environment Line)

def record (world : World Line) (kind : StatEvent) : World Line :=
  {world with sink := {world.sink with stats := world.sink.stats.record kind}}

variable (world : World Line) (pending : List SpoolEntry)

def setSpool : World Line :=
  {world with sink := {world.sink with spool := some pending}}

/-- Every line that is not blank has to be an entry. -/
def openSpool (file : Option (List Line)) : Except WebhookError (List SpoolEntry) :=
  match file with
  | none => .ok []
  | some lines =>
    (lines.filter fun line => !env.lines.blank line).mapM fun line =>
      (env.lines.decode line).mapError .spoolParse

/-- The line is appended before the entry is kept in memory. -/
def push (entry : SpoolEntry) : World Line :=
  match world.sink.spool with
  | some pending =>
    {world.setSpool (pending ++ [entry]) with
      file := some (world.file.getD [] ++ [env.lines.encode entry])}
  | none => world

def flush : World Line :=
  {world.setSpool pending with file := some (pending.map env.lines.encode)}

def post (endpoint : EndpointConfig) (deliveryId : String) (body : Bytes) (result : PostResult) :
    World Line :=
  {world with
    posted := world.posted ++ [⟨⟨deliveryId, endpoint.url⟩, body,
      env.signBody endpoint.secret body, result⟩]}

def fail (pair : Pair) : World Line :=
  {world with failed := world.failed ++ [pair]}

def finish (entry : SpoolEntry) : World Line :=
  {world with finished := world.finished ++ [entry.pair]}

/-- The handler gets the event of the call that drains the spool. -/
def fireDropped (event : AdnetEvent) (entry : SpoolEntry) : World Line :=
  let endpoint := (world.sink.endpoints.find? fun endpoint => endpoint.url = entry.endpointUrl).getD
    {url := entry.endpointUrl, secret := [], requestTimeout := 0}
  if world.sink.droppedHandler then
    {world with drops := world.drops ++ [⟨event, endpoint, entry.deliveryId, entry.attempts⟩]}
  else world

end World

variable {Line : Type} (env : Environment Line)

/-- The loop over the endpoints knows whether one was tried and whether all failed. -/
structure Progress (Line : Type) where
  world : World Line
  allFailed : Bool := true
  anyAttempted : Bool := false

/-- This is what comes of the first post to an endpoint. -/
def settle (call : Call) (body : Bytes) (endpoint : EndpointConfig) (result : PostResult)
    (progress : Progress Line) : Progress Line :=
  let world := progress.world.post env endpoint call.deliveryId body result
  match result with
  | .ok .accepted =>
    {world := world.record .accepted, allFailed := false, anyAttempted := true}
  | .ok (.rejected _) =>
    {world := world.record .rejected, allFailed := false, anyAttempted := true}
  | .ok .failed | .error _ =>
    let world := (world.record .failed).fail ⟨call.deliveryId, endpoint.url⟩
    {progress with
      world := world.push env ⟨call.deliveryId, endpoint.url, body, 1⟩,
      anyAttempted := true}

def attemptAll (call : Call) (body : Bytes) :
    Nat → List EndpointConfig → Progress Line → Progress Line
  | _, [], progress => progress
  | index, endpoint :: rest, progress =>
    attemptAll call body (index + 1) rest <|
      if roomMatches call.event endpoint then
        settle env call body endpoint (call.first index) progress
      else progress

/-- An entry that fails again within its budget survives. -/
def retry (call : Call) (entry : SpoolEntry) (result : PostResult) (world : World Line) :
    Option SpoolEntry × World Line :=
  match world.sink.endpoints.find? fun endpoint => endpoint.url = entry.endpointUrl with
  | none => (none, ((world.finish entry).record .dropped).fireDropped call.event entry)
  | some endpoint =>
    let attempts := entry.attempts + 1
    let world := world.post env endpoint entry.deliveryId entry.body result
    match result with
    | .ok .accepted => (none, (world.finish entry).record .accepted)
    | .ok (.rejected _) =>
      (none, (((world.finish entry).record .rejected).record .dropped).fireDropped
        call.event entry)
    | .ok .failed | .error _ =>
      if world.sink.maxAttempts < attempts then
        (none, ((world.finish entry).record .dropped).fireDropped call.event entry)
      else (some {entry with attempts}, world)

def retryAll (call : Call) : Nat → List SpoolEntry → World Line → List SpoolEntry × World Line
  | _, [], world => ([], world)
  | index, entry :: rest, world =>
    let (survivor, world) := retry env call entry (call.again index) world
    let (survivors, world) := retryAll call (index + 1) rest world
    (survivor.toList ++ survivors, world)

/-- The file is written again only when an entry survives. -/
def drainSpool (call : Call) (world : World Line) : World Line :=
  match world.sink.spool with
  | none => world
  | some drained =>
    let (survivors, world) := retryAll env call 0 drained (world.setSpool [])
    if survivors.isEmpty then world else world.flush env survivors

def deliver (world : World Line) (call : Call) : Except WebhookError Unit × World Line :=
  match env.encode call.event with
  | .error text => (.error (.spoolParse text), world)
  | .ok body =>
    let progress := attemptAll env call body 0 world.sink.endpoints {world}
    let world := drainSpool env call progress.world
    if progress.allFailed && progress.anyAttempted then
      (.error (.transport "all configured webhook endpoints failed"), world)
    else (.ok (), world)

/-- At least one attempt is made. -/
def withOptions (endpoints : List EndpointConfig) (spool : Option (Option (List Line)))
    (maxAttempts : UInt32) : Except WebhookError WebhookSink := do
  let spool ← spool.mapM (World.openSpool env)
  return {endpoints, spool, maxAttempts := max maxAttempts 1}

def setDroppedHandler (sink : WebhookSink) (handler : Bool) : WebhookSink :=
  {sink with droppedHandler := handler}

end A3Net.Webhook
