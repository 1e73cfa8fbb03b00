import A3Net.Construction.Blobstore.PathSegments
import A3Net.Machine.Fallible
import A3Net.Machine.FileSystem

namespace A3Net.Blobstore.Namespace

open Cryptography Machine List

def escapeDigit (byte : UInt8) : Option Nat := hexValue (Char.ofNat byte.toNat)

/-- An escape stands for the byte of its two digits, and all other bytes for themselves. -/
inductive Decodes : Bytes → Bytes → Prop where
  | nil : Decodes [] []
  | plain {byte : UInt8} {rest decoded : Bytes} (noEscape : byte ≠ 37)
      (later : Decodes rest decoded) : Decodes (byte :: rest) (byte :: decoded)
  | escape {high low : UInt8} {highValue lowValue : Nat} {rest decoded : Bytes}
      (highDigit : escapeDigit high = some highValue) (lowDigit : escapeDigit low = some lowValue)
      (later : Decodes rest decoded) :
      Decodes (37 :: high :: low :: rest) (UInt8.ofNat (16 * highValue + lowValue) :: decoded)

/-- No component leads from the root upwards. -/
def NeverAbove (cur : Location) : List Component → Prop
  | [] => True
  | .parent :: rest => cur ≠ [] ∧ NeverAbove cur.dropLast rest
  | .normal name :: rest => NeverAbove (cur ++ [name]) rest

/-- The segments are plain names, and they name the place to which the components of the decoded
path lead from the root. -/
structure NamesPlace (raw : String) (segments : PathSegments) : Prop where
  plain : ∀ segment ∈ segments, segment ≠ "" ∧ segment ≠ "." ∧ segment ≠ ".." ∧
    '/' ∉ segment.toList ∧ '\x00' ∉ segment.toList
  depth : segments.length ≤ 64
  place : ∃ text, Decodes (utf8 raw) (utf8Chars text) ∧
    NeverAbove [] (Path.parse text).components ∧
    normalise [] (Path.parse text).components = segments

theorem hexNibble_eq (byte : UInt8) : hexNibble byte = (escapeDigit byte).map UInt8.ofNat := by
  have all : ∀ code < 256, hexNibble (UInt8.ofNat code) =
      (escapeDigit (UInt8.ofNat code)).map UInt8.ofNat := by
    decide +kernel
  have single := all byte.toNat byte.toNat_lt
  rwa [UInt8.ofNat_toNat] at single

theorem hexValue_lt {digit : Char} {value : Nat} (read : hexValue digit = some value) :
    value < 16 := by
  unfold hexValue at read
  split_ifs at read <;> cases read <;> omega

variable {position : Nat}

theorem nibbleAt_ok {byte nibble : UInt8} (read : nibbleAt position byte = .ok nibble) :
    ∃ value < 16, escapeDigit byte = some value ∧ nibble = UInt8.ofNat value := by
  unfold nibbleAt at read
  rw [hexNibble_eq] at read
  cases digit : escapeDigit byte with
  | none => simp [digit] at read
  | some value =>
    simp only [digit, Option.map_some, Except.ok.injEq] at read
    exact ⟨value, hexValue_lt digit, rfl, read.symm⟩

/-- The strict decoder reads its bytes as they are decoded, and no null byte comes out. -/
theorem percentDecodeBytes_ok {bytes out : Bytes}
    (decoded : percentDecodeBytes position bytes = .ok out) : Decodes bytes out ∧ 0 ∉ out := by
  fun_induction percentDecodeBytes position bytes generalizing out with
  | case1 position =>
    cases decoded
    exact ⟨.nil, not_mem_nil⟩
  | case2 position high low rest ih =>
    obtain ⟨highNibble, highRead, decoded⟩ := bind_ok_iff.mp decoded
    obtain ⟨lowNibble, lowRead, decoded⟩ := bind_ok_iff.mp decoded
    obtain ⟨highValue, highBound, highDigit, rfl⟩ := nibbleAt_ok highRead
    obtain ⟨lowValue, lowBound, lowDigit, rfl⟩ := nibbleAt_ok lowRead
    have joined := joinNibbles highValue highBound lowValue lowBound
    dsimp only at decoded
    split_ifs at decoded with null
    obtain ⟨later, read, equal⟩ := bind_ok_iff.mp decoded
    cases equal
    obtain ⟨decodes, visible⟩ := ih read
    rw [joined] at null ⊢
    refine ⟨.escape highDigit lowDigit decodes, ?_⟩
    rw [mem_cons, not_or]
    exact ⟨Ne.symm null, visible⟩
  | case3 | case4 => cases decoded
  | case5 position byte rest noEscape noNull ih =>
    obtain ⟨later, read, equal⟩ := bind_ok_iff.mp decoded
    cases equal
    obtain ⟨decodes, visible⟩ := ih read
    exact ⟨.plain noEscape decodes, by simp [Ne.symm noNull, visible]⟩

theorem percentDecodeStrict_ok {raw : String} {decoded : List Char}
    (accepted : percentDecodeStrict raw = .ok decoded) :
    Decodes (utf8 raw) (utf8Chars decoded) ∧ '\x00' ∉ decoded := by
  obtain ⟨out, read, accepted⟩ := bind_ok_iff.mp accepted
  obtain ⟨decodes, visible⟩ := percentDecodeBytes_ok read
  cases text : fromUtf8 out with
  | none => simp [text] at accepted
  | some characters =>
    simp only [text, Except.ok.injEq] at accepted
    subst accepted
    have bytes := utf8Chars_of_fromUtf8 text
    subst bytes
    refine ⟨decodes, fun null => visible ?_⟩
    exact mem_flatMap.mpr ⟨_, null, by decide⟩

theorem parts_withoutTrailingSlash (text : List Char) :
    parts '/' (withoutTrailingSlash text) = parts '/' text := by
  unfold withoutTrailingSlash
  split_ifs with trailing
  · have whole := dropLast_append_getLast? '/' trailing
    have closed := parts_append_cons '/' text.dropLast []
    rw [whole] at closed
    rw [closed]
    exact (append_nil _).symm
  · rfl

variable {text : List Char} {segs : List (List Char)}

/-- The tokens are the parts between the slashes. -/
theorem tokenise_ok (tokens : tokenise text = .ok segs) : segs = parts '/' text := by
  unfold tokenise at tokens
  split at tokens
  · cases tokens
    rfl
  · next rest =>
    have lead : parts '/' ('/' :: rest) = parts '/' rest := parts_append_cons '/' [] rest
    rw [lead, ← parts_withoutTrailingSlash]
    dsimp only at tokens
    split_ifs at tokens with short gap
    · cases tokens
      rw [isEmpty_iff.mp short]
      rfl
    · cases tokens
      refine (filter_eq_self.mpr fun part member => ?_).symm
      cases part with
      | nil => exact absurd (any_eq_true.mpr ⟨[], member, rfl⟩) gap
      | cons _ _ => rfl
  · cases tokens

variable {stack : List (List Char)}

/-- The slashes of the rendering are only separators. -/
theorem parts_render {leading trailing : Bool} (plain : ∀ seg ∈ stack, '/' ∉ seg ∧ seg ≠ []) :
    parts '/' (render leading trailing stack) = stack := by
  have closed : ∀ text, parts '/' (text ++ ['/']) = parts '/' text := fun text => by
    rw [parts_append_cons]
    exact append_nil _
  have opened : parts '/' ((if leading then ['/'] else []) ++ ['/'].intercalate stack) = stack := by
    cases leading with
    | false => exact parts_intercalate plain
    | true => exact (parts_append_cons '/' [] _).trans (parts_intercalate plain)
  unfold render
  generalize (if leading then ['/'] else []) ++ ['/'].intercalate stack = out at opened ⊢
  dsimp only
  split_ifs
  · rw [closed, closed, opened]
  · rw [closed, opened]
  · rw [closed, opened]
  · exact opened

variable {debug : List Char → String}

/-- The kept segments are the place to which the components lead, and no component leads above the
root. -/
theorem resolveDots_ok {result : List (List Char)} (visible : ∀ seg ∈ segs, seg ≠ [])
    (resolved : resolveDots debug text stack segs = .ok result) :
    NeverAbove (stack.map String.ofList) (segs.filterMap Path.component) ∧
      normalise (stack.map String.ofList) (segs.filterMap Path.component) =
        result.map String.ofList := by
  fun_induction resolveDots debug text stack segs with
  | case1 stack =>
    cases resolved
    exact ⟨trivial, rfl⟩
  | case2 stack segs ih =>
    exact ih (forall_mem_cons.mp visible).2 resolved
  | case3 stack segs => cases resolved
  | case4 stack segs top _ ih =>
    obtain ⟨below, place⟩ :=
      ih (forall_mem_cons.mp visible).2 resolved
    rw [map_dropLast] at below place
    refine ⟨⟨?_, below⟩, place⟩
    simpa using top
  | case5 stack seg segs single double ih =>
    obtain ⟨below, place⟩ :=
      ih (forall_mem_cons.mp visible).2 resolved
    have named : Path.component seg = some (.normal (String.ofList seg)) := by
      simp [Path.component, single, double, visible seg mem_cons_self]
    rw [map_append, map_singleton] at below place
    rw [filterMap_cons_some named]
    exact ⟨below, place⟩

/-- A kept segment is a token that is no dot segment. -/
theorem mem_resolveDots {result : List (List Char)}
    (resolved : resolveDots debug text stack segs = .ok result) :
    ∀ seg ∈ result, seg ∈ stack ∨ seg ∈ segs ∧ seg ≠ ['.'] ∧ seg ≠ ['.', '.'] := by
  fun_induction resolveDots debug text stack segs with
  | case1 stack =>
    cases resolved
    exact fun seg member => Or.inl member
  | case2 stack segs ih =>
    intro seg member
    rcases ih resolved seg member with old | ⟨later, plain⟩
    · exact Or.inl old
    · exact Or.inr ⟨mem_cons_of_mem _ later, plain⟩
  | case3 stack segs => cases resolved
  | case4 stack segs top _ ih =>
    intro seg member
    rcases ih resolved seg member with old | ⟨later, plain⟩
    · exact Or.inl (dropLast_subset _ old)
    · exact Or.inr ⟨mem_cons_of_mem _ later, plain⟩
  | case5 stack seg segs single double ih =>
    intro other member
    rcases ih resolved other member with old | ⟨later, plain⟩
    · rcases mem_append.mp old with kept | new
      · exact Or.inl kept
      · rw [mem_singleton.mp new]
        exact Or.inr ⟨mem_cons_self, single, double⟩
    · exact Or.inr ⟨mem_cons_of_mem _ later, plain⟩

theorem ofList_ne {other : String} (ne : text ≠ other.toList) : String.ofList text ≠ other := by
  rintro rfl
  exact ne (String.toList_ofList).symm

theorem components_eq (text : List Char) :
    (Path.parse text).components = (parts '/' text).filterMap Path.component := by
  change (text.splitOn '/').filterMap Path.component = _
  unfold parts
  rw [filterMap_filter]
  congr 1
  funext piece
  cases piece <;> rfl

/-- The decoded segments name the place of the path that was asked for, and never leave the
root. -/
theorem decodeHttp_namesPlace {debug : List Char → String} {raw : String} {segments : PathSegments}
    (accepted : decodeHttp debug raw = .ok segments) : NamesPlace raw segments := by
  unfold decodeHttp at accepted
  dsimp only at accepted
  split_ifs at accepted
  split at accepted
  · cases accepted
  · next decoded strict =>
    split at accepted
    · cases accepted
    · next canonical canonicalised =>
      obtain ⟨segs, tokens, canonicalised⟩ := bind_ok_iff.mp canonicalised
      obtain ⟨stack, resolved, equal⟩ := bind_ok_iff.mp canonicalised
      cases equal
      obtain rfl := tokenise_ok tokens
      have kept : ∀ seg ∈ stack, seg ∈ parts '/' decoded ∧ seg ≠ ['.'] ∧ seg ≠ ['.', '.'] := by
        intro seg member
        simpa using mem_resolveDots resolved seg member
      have plain : ∀ seg ∈ stack, '/' ∉ seg ∧ seg ≠ [] := fun seg member =>
        (mem_parts (kept seg member).1).1
      rw [parts_render plain] at accepted
      split_ifs at accepted with deep
      cases accepted
      obtain ⟨decodes, visible⟩ := percentDecodeStrict_ok strict
      obtain ⟨below, place⟩ :=
        resolveDots_ok (fun seg member => (mem_parts member).1.2) resolved
      rw [← components_eq] at below place
      refine ⟨?_, ?_, decoded, decodes, below, place⟩
      · intro segment member
        obtain ⟨seg, inside, rfl⟩ := mem_map.mp member
        obtain ⟨part, single, double⟩ := kept seg inside
        obtain ⟨⟨slash, short⟩, shown⟩ := mem_parts part
        rw [String.toList_ofList]
        exact ⟨ofList_ne short, ofList_ne single, ofList_ne double, slash,
          fun null => visible (shown null)⟩
      · rw [length_map]
        exact Nat.le_of_not_lt deep

theorem percentDecodeStrict_dots : percentDecodeStrict "/a/%2e%2E/b" = .ok "/a/../b".toList := by
  have bytes : percentDecodeBytes 0 (utf8 "/a/%2e%2E/b") = .ok (utf8Chars "/a/../b".toList) := by
    decide +kernel
  unfold percentDecodeStrict
  rw [bytes]
  simp only [bind, Except.bind, fromUtf8_utf8Chars]

/-- The encoded dots of a path lead back to the root. -/
theorem decodeHttp_dots :
    decodeHttp (fun _ => "") "/a/%2e%2E/b" = .ok ["b"] ∧ NamesPlace "/a/%2e%2E/b" ["b"] := by
  have accepted : decodeHttp (fun _ => "") "/a/%2e%2E/b" = .ok ["b"] := by
    unfold decodeHttp
    rw [percentDecodeStrict_dots]
    decide +kernel
  exact ⟨accepted, decodeHttp_namesPlace accepted⟩

end A3Net.Blobstore.Namespace
