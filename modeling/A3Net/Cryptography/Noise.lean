/-
This file gives the extraction and the expansion of keys over any keyed hash, a handshake library
and the handshake `XX` of the Noise framework.
-/

import A3Net.Cryptography.Bytes

namespace A3Net.Cryptography

/-- A keyed hash takes a key and a message, and gives 32 bytes. -/
structure Hmac where
  run : Bytes → Bytes → Bytes
  size : ∀ key msg, (run key msg).length = 32

namespace Hkdf

variable (hmac : Hmac)

/-- A missing salt is a block of zeros. -/
def extract (salt : Option Bytes) (input : Bytes) : Bytes :=
  hmac.run (salt.getD (List.replicate 32 0)) input

/-- Each block depends on the block before it and ends with its own number. -/
def blocks (key info : Bytes) : Nat → Nat → Bytes → Bytes
  | 0, _, _ => []
  | count + 1, number, previous =>
    let block := hmac.run key (previous ++ info ++ [UInt8.ofNat number])
    block ++ blocks key info count (number + 1) block

/-- At most 255 blocks can be numbered. -/
def expand (key info : Bytes) (length : Nat) : Option Bytes :=
  if 255 * 32 < length then none
  else some ((blocks hmac key info ((length + 31) / 32) 1 []).take length)

theorem blocks_length (key info : Bytes) (count number : Nat) (previous : Bytes) :
    (blocks hmac key info count number previous).length = 32 * count := by
  induction count generalizing number previous with
  | zero => rfl
  | succ count ih =>
    simp only [blocks, List.length_append, hmac.size, ih]
    omega

/-- The expansion gives as many bytes as were asked for. -/
theorem expand_length {key info output : Bytes} {length : Nat}
    (expanded : expand hmac key info length = some output) : output.length = length := by
  unfold expand at expanded
  split at expanded
  · cases expanded
  · rw [← Option.some.inj expanded, List.length_take, blocks_length]
    omega

end Hkdf

namespace Noise

/-- These are the calls of a handshake library. A message is written with a payload into a buffer
of some size, and its random bytes come from the environment. -/
structure Api (State : Type) where
  buildInitiator : String → Bytes → Except String State
  buildResponder : String → Bytes → Except String State
  writeMessage : State → Bytes → Nat → Bytes → Except String (Bytes × State)
  readMessage : State → Bytes → Nat → Except String (Bytes × State)
  getHandshakeHash : State → Bytes

/-- A party wrote and read these messages so far. -/
inductive Transcript {State : Type} (api : Api State) (name : String) : State → List Bytes → Prop
  | initiator {static state} (built : api.buildInitiator name static = .ok state) :
      Transcript api name state []
  | responder {static state} (built : api.buildResponder name static = .ok state) :
      Transcript api name state []
  | write {state messages payload room random msg next}
      (before : Transcript api name state messages)
      (written : api.writeMessage state payload room random = .ok (msg, next)) :
      Transcript api name next (messages ++ [msg])
  | read {state messages msg room payload next}
      (before : Transcript api name state messages)
      (received : api.readMessage state msg room = .ok (payload, next)) :
      Transcript api name next (messages ++ [msg])

/-- The handshake hash is a public function of the protocol name and the transmitted messages. -/
def PublicHash {State : Type} (api : Api State) (publicHash : String → List Bytes → Bytes) : Prop :=
  ∀ name state messages, Transcript api name state messages →
    api.getHandshakeHash state = publicHash name messages

/-- These are the primitives of a cipher suite. -/
structure Suite where
  hash : Bytes → Bytes
  hmac : Hmac
  publicKey : Bytes → Bytes
  publicSize : ∀ key, (publicKey key).length = 32
  dh : Bytes → Bytes → Bytes
  encrypt : Bytes → Nat → Bytes → Bytes → Bytes
  encryptSize : ∀ key nonce data plain, (encrypt key nonce data plain).length = plain.length + 16
  decrypt : Bytes → Nat → Bytes → Bytes → Option Bytes

/-- The symmetric state has a chaining key, a hash, and perhaps a cipher key with its nonce. -/
structure Symmetric where
  chain : Bytes
  hash : Bytes
  key : Option (Bytes × Nat) := none

inductive Token where
  | e
  | s
  | ee
  | es
  | se

def xxPatterns : List (List Token) := [[.e], [.e, .ee, .s, .es], [.s, .se]]

structure Handshake where
  symmetric : Symmetric
  initiator : Bool
  turn : Bool
  patterns : List (List Token) := xxPatterns
  static : Bytes
  ephemeral : Bytes := []
  remoteStatic : Bytes := []
  remoteEphemeral : Bytes := []

variable (suite : Suite) (name : String)

namespace Symmetric

/-- The prologue is empty. -/
def start : Symmetric :=
  let bytes := utf8 name
  let padded :=
    if bytes.length ≤ 32 then bytes ++ List.replicate (32 - bytes.length) 0 else suite.hash bytes
  {chain := padded, hash := suite.hash padded}

variable (state : Symmetric)

def mixHash (data : Bytes) : Symmetric :=
  {state with hash := suite.hash (state.hash ++ data)}

def mixKey (input : Bytes) : Symmetric :=
  let secret := Hkdf.extract suite.hmac (some state.chain) input
  let output := (Hkdf.expand suite.hmac secret [] 64).getD []
  {state with chain := output.take 32, key := some (output.drop 32, 0)}

def encryptAndHash (plain : Bytes) : Bytes × Symmetric :=
  match state.key with
  | none => (plain, state.mixHash suite plain)
  | some (key, nonce) =>
    let cipher := suite.encrypt key nonce state.hash plain
    (cipher, {state.mixHash suite cipher with key := some (key, nonce + 1)})

def decryptAndHash (cipher : Bytes) : Option (Bytes × Symmetric) :=
  match state.key with
  | none => some (cipher, state.mixHash suite cipher)
  | some (key, nonce) =>
    (suite.decrypt key nonce state.hash cipher).map fun plain =>
      (plain, {state.mixHash suite cipher with key := some (key, nonce + 1)})

end Symmetric

namespace Handshake

variable (state : Handshake)

/-- A token of two letters names the keys of the initiator and of the responder in this order. -/
def secret : Token → Bytes
  | .ee => suite.dh state.ephemeral state.remoteEphemeral
  | .es =>
    if state.initiator then suite.dh state.ephemeral state.remoteStatic
    else suite.dh state.static state.remoteEphemeral
  | .se =>
    if state.initiator then suite.dh state.static state.remoteEphemeral
    else suite.dh state.ephemeral state.remoteStatic
  | _ => []

def writeToken (random : Bytes) (state : Handshake) : Token → Bytes × Handshake
  | .e =>
    let key := suite.publicKey random
    (key, {state with ephemeral := random, symmetric := state.symmetric.mixHash suite key})
  | .s =>
    let (cipher, symmetric) := state.symmetric.encryptAndHash suite (suite.publicKey state.static)
    (cipher, {state with symmetric})
  | token =>
    ([], {state with symmetric := state.symmetric.mixKey suite (state.secret suite token)})

def writeTokens (random : Bytes) : List Token → Handshake → Bytes × Handshake
  | [], state => ([], state)
  | token :: tokens, state =>
    let (part, next) := state.writeToken suite random token
    let (parts, last) := writeTokens random tokens next
    (part ++ parts, last)

def writeMessage (payload : Bytes) (room : Nat) (random : Bytes) :
    Except String (Bytes × Handshake) :=
  match state.patterns with
  | [] => .error "handshake finished"
  | tokens :: patterns =>
    if !state.turn then .error "not the turn to write"
    else
      let (front, next) := writeTokens suite random tokens state
      let (cipher, symmetric) := next.symmetric.encryptAndHash suite payload
      if room < (front ++ cipher).length then .error "no room"
      else .ok (front ++ cipher, {next with symmetric, patterns, turn := false})

/-- An encrypted key has a tag. -/
def keySize (keyed : Bool) : Nat := if keyed then 48 else 32

def readToken (msg : Bytes) : Token → Option (Bytes × Handshake)
  | .e =>
    if msg.length < 32 then none
    else
      let key := msg.take 32
      some (msg.drop 32,
        {state with remoteEphemeral := key, symmetric := state.symmetric.mixHash suite key})
  | .s =>
    let size := keySize state.symmetric.key.isSome
    if msg.length < size then none
    else
      (state.symmetric.decryptAndHash suite (msg.take size)).map fun (key, symmetric) =>
        (msg.drop size, {state with remoteStatic := key, symmetric})
  | token =>
    some (msg, {state with symmetric := state.symmetric.mixKey suite (state.secret suite token)})

def readTokens : List Token → Handshake → Bytes → Option (Bytes × Handshake)
  | [], state, msg => some (msg, state)
  | token :: tokens, state, msg =>
    (state.readToken suite msg token).bind fun (rest, next) => readTokens tokens next rest

def readMessage (msg : Bytes) (room : Nat) : Except String (Bytes × Handshake) :=
  match state.patterns with
  | [] => .error "handshake finished"
  | tokens :: patterns =>
    if state.turn then .error "not the turn to read"
    else
      match readTokens suite tokens state msg with
      | none => .error "bad message"
      | some (rest, next) =>
        match next.symmetric.decryptAndHash suite rest with
        | none => .error "bad payload"
        | some (payload, symmetric) =>
          if room < payload.length then .error "no room"
          else .ok (payload, {next with symmetric, patterns, turn := true})

end Handshake

/-- Two parties run the pattern `XX`. -/
def xx : Api Handshake where
  buildInitiator name static :=
    .ok {symmetric := Symmetric.start suite name, initiator := true, turn := true, static}
  buildResponder name static :=
    .ok {symmetric := Symmetric.start suite name, initiator := false, turn := false, static}
  writeMessage := Handshake.writeMessage suite
  readMessage := Handshake.readMessage suite
  getHandshakeHash state := state.symmetric.hash

/-- An observer knows the hash, whether a key is set, and the rest of the pattern. -/
structure View where
  hash : Bytes
  keyed : Bool
  patterns : List (List Token)

def Handshake.view (state : Handshake) : View :=
  ⟨state.symmetric.hash, state.symmetric.key.isSome, state.patterns⟩

namespace View

def start : View := ⟨(Symmetric.start suite name).hash, false, xxPatterns⟩

variable (view : View)

def absorb (data : Bytes) : View :=
  {view with hash := suite.hash (view.hash ++ data)}

/-- The observer follows a token through the front of a message. -/
def token (msg : Bytes) : Token → View × Bytes
  | .e => (view.absorb suite (msg.take 32), msg.drop 32)
  | .s =>
    let size := Handshake.keySize view.keyed
    (view.absorb suite (msg.take size), msg.drop size)
  | _ => ({view with keyed := true}, msg)

def tokens : List Token → View → Bytes → View × Bytes
  | [], view, msg => (view, msg)
  | first :: rest, view, msg =>
    let (next, left) := view.token suite msg first
    tokens rest next left

def message (bytes : Bytes) : View :=
  match view.patterns with
  | [] => view
  | first :: rest =>
    let (next, left) := tokens suite first view bytes
    {next.absorb suite left with patterns := rest}

/-- The observer computes the hash from the messages alone. -/
def publicHash (messages : List Bytes) : Bytes :=
  (messages.foldl (message suite) (start suite name)).hash

end View

/-- An encryption mixes the transmitted bytes into the hash, with or without a key. -/
theorem encryptAndHash_view (state : Symmetric) (plain : Bytes) :
    (state.encryptAndHash suite plain).2.hash =
        suite.hash (state.hash ++ (state.encryptAndHash suite plain).1) ∧
      (state.encryptAndHash suite plain).2.key.isSome = state.key.isSome ∧
      (state.encryptAndHash suite plain).1.length =
        if state.key.isSome then plain.length + 16 else plain.length := by
  unfold Symmetric.encryptAndHash
  split
  · next none => simp [Symmetric.mixHash, none]
  · next some => simp [Symmetric.mixHash, some, suite.encryptSize]

theorem decryptAndHash_view {state next : Symmetric} {cipher plain : Bytes}
    (decrypted : state.decryptAndHash suite cipher = some (plain, next)) :
    next.hash = suite.hash (state.hash ++ cipher) ∧ next.key.isSome = state.key.isSome := by
  unfold Symmetric.decryptAndHash at decrypted
  split at decrypted
  · next none =>
    cases decrypted
    exact ⟨rfl, rfl⟩
  · next some =>
    obtain ⟨_, -, equal⟩ := Option.map_eq_some_iff.mp decrypted
    cases equal
    exact ⟨rfl, by rw [some]; rfl⟩

theorem writeToken_view (random rest : Bytes) (state : Handshake) (token : Token) :
    state.view.token suite ((state.writeToken suite random token).1 ++ rest) token =
      ((state.writeToken suite random token).2.view, rest) := by
  cases token with
  | e =>
    simp [Handshake.writeToken, View.token, View.absorb, Handshake.view, Symmetric.mixHash,
      suite.publicSize]
  | s =>
    obtain ⟨hash, keyed, size⟩ :=
      encryptAndHash_view suite state.symmetric (suite.publicKey state.static)
    have sized : (state.symmetric.encryptAndHash suite (suite.publicKey state.static)).1.length =
        Handshake.keySize state.symmetric.key.isSome := by
      rw [size, suite.publicSize, Handshake.keySize]
    simp [Handshake.writeToken, View.token, View.absorb, Handshake.view, hash, keyed, ← sized]
  | ee | es | se => rfl

theorem writeTokens_view (random rest : Bytes) (tokens : List Token) (state : Handshake) :
    View.tokens suite tokens state.view ((Handshake.writeTokens suite random tokens state).1 ++ rest) =
      ((Handshake.writeTokens suite random tokens state).2.view, rest) := by
  induction tokens generalizing state with
  | nil => rfl
  | cons token tokens ih =>
    simp only [Handshake.writeTokens, View.tokens, List.append_assoc]
    rw [writeToken_view]
    exact ih _

variable {state next : Handshake}

/-- The observer follows a written message. -/
theorem writeMessage_view {payload random msg : Bytes} {room : Nat}
    (written : state.writeMessage suite payload room random = .ok (msg, next)) :
    next.view = state.view.message suite msg := by
  unfold Handshake.writeMessage at written
  split at written
  · cases written
  · next tokens patterns pattern =>
    dsimp only at written
    split_ifs at written
    cases written
    obtain ⟨hash, keyed, -⟩ := encryptAndHash_view suite
      (Handshake.writeTokens suite random tokens state).2.symmetric payload
    have front := writeTokens_view suite random
      ((Handshake.writeTokens suite random tokens state).2.symmetric.encryptAndHash suite payload).1
      tokens state
    have patterned : state.view.patterns = tokens :: patterns := pattern
    simp only [View.message, patterned, front, View.absorb]
    simp only [Handshake.view, hash, keyed]

theorem readToken_view {msg rest : Bytes} {token : Token}
    (received : state.readToken suite msg token = some (rest, next)) :
    state.view.token suite msg token = (next.view, rest) := by
  cases token with
  | e =>
    simp only [Handshake.readToken] at received
    split_ifs at received
    cases received
    rfl
  | s =>
    simp only [Handshake.readToken] at received
    split_ifs at received
    obtain ⟨⟨key, symmetric⟩, decrypted, equal⟩ := Option.map_eq_some_iff.mp received
    obtain ⟨hash, keyed⟩ := decryptAndHash_view suite decrypted
    cases equal
    simp [View.token, View.absorb, Handshake.view, hash, keyed]
  | ee | es | se =>
    cases received
    rfl

theorem readTokens_view {tokens : List Token} {msg rest : Bytes}
    (received : Handshake.readTokens suite tokens state msg = some (rest, next)) :
    View.tokens suite tokens state.view msg = (next.view, rest) := by
  induction tokens generalizing state msg with
  | nil =>
    cases received
    rfl
  | cons token tokens ih =>
    obtain ⟨⟨left, middle⟩, first, later⟩ := Option.bind_eq_some_iff.mp received
    simp only [View.tokens, readToken_view suite first]
    exact ih later

/-- The observer follows a message that a party accepts. -/
theorem readMessage_view {msg payload : Bytes} {room : Nat}
    (received : state.readMessage suite msg room = .ok (payload, next)) :
    next.view = state.view.message suite msg := by
  unfold Handshake.readMessage at received
  split at received
  · cases received
  · next tokens patterns pattern =>
    split_ifs at received
    split at received
    · cases received
    · next rest middle front =>
      split at received
      · cases received
      · next plain symmetric decrypted =>
        split_ifs at received
        cases received
        obtain ⟨hash, keyed⟩ := decryptAndHash_view suite decrypted
        have patterned : state.view.patterns = tokens :: patterns := pattern
        simp only [View.message, patterned, readTokens_view suite front, View.absorb]
        simp only [Handshake.view, hash, keyed]

/-- The observer of a transcript agrees with each party of the handshake. -/
theorem transcript_view {name : String} {messages : List Bytes}
    (transcript : Transcript (xx suite) name state messages) :
    state.view = messages.foldl (View.message suite) (View.start suite name) := by
  induction transcript with
  | initiator built | responder built =>
    cases built
    rfl
  | write before written ih =>
    rw [List.foldl_append, ← ih]
    exact writeMessage_view suite written
  | read before received ih =>
    rw [List.foldl_append, ← ih]
    exact readMessage_view suite received

/-- The hash of the pattern `XX` is public, whatever the primitives are. -/
theorem xx_publicHash : PublicHash (xx suite) (View.publicHash suite) :=
  fun _ _ _ transcript => congrArg View.hash (transcript_view suite transcript)

end Noise
end A3Net.Cryptography
