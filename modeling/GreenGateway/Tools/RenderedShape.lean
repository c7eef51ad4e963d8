import GreenGateway.Config.Digests
import GreenGateway.Config.StrictJson
import GreenGateway.Tools.Rendering

/-! The shape of a rendered path: every segment of the template stays one segment of the
URL and decodes to the template's text with the arguments put in, unless arguments that
are empty leave a segment of dots behind. -/

namespace GreenGateway.Tools

open Foundation Config List

section Pieces

/-- A template character, or a placeholder. -/
inductive Piece where
  | literal (char : Char)
  | placeholder (name : String)
  deriving DecidableEq, Repr

/-- The unreserved characters of a URL. -/
def isUnreserved (char : Char) : Bool := char.isAlphanum || ['-', '.', '_', '~'].contains char

namespace Piece

def spelled : Piece → List Char
  | .literal char => [char]
  | .placeholder name => '\x7b' :: (name.toList ++ ['\x7d'])

/-- A piece of a plain template. -/
def Plain : Piece → Prop
  | .literal char => char = '/' ∨ isUnreserved char = true
  | .placeholder name => '\x7d' ∉ name.toList

instance : DecidablePred Plain
  | .literal char => inferInstanceAs (Decidable (char = '/' ∨ isUnreserved char = true))
  | .placeholder name => inferInstanceAs (Decidable ('\x7d' ∉ name.toList))

def isSlash (piece : Piece) : Bool := piece == .literal '/'

end Piece

/-- The text an argument fills a placeholder with. -/
def argumentText (args : Json) (name : String) : String :=
  ((optionalArgument args name).bind scalarText?).getD ""

namespace Piece

variable (args : Json)

def text : Piece → List Char
  | .literal char => [char]
  | .placeholder name => (argumentText args name).toList

def rendered : Piece → List Char
  | .literal char => [char]
  | .placeholder name => encodePathSegmentArgument (argumentText args name)

end Piece

/-- The segments of a template that begins with a slash. -/
def templateSegments (pieces : List Piece) : List (List Piece) :=
  (pieces.splitOnP Piece.isSlash).tail

/-- A template segment with its placeholders replaced by their arguments' texts. -/
def segmentText (args : Json) (segment : List Piece) : String :=
  String.ofList (segment.flatMap (Piece.text args))

/-- The literal characters of a segment. -/
def literals (segment : List Piece) : List Char :=
  segment.flatMap fun
    | .literal char => [char]
    | .placeholder _ => []

/-- A segment that is only dots once its arguments, all empty, are put in. -/
def LeavesDots (args : Json) (segment : List Piece) : Prop :=
  literals segment ∈ [['.'], ['.', '.']] ∧
    ∀ name, Piece.placeholder name ∈ segment → argumentText args name = ""

/-- The bytes percent-encoded text stands for. -/
def percentDecode : List Char → List UInt8
  | [] => []
  | '%' :: high :: low :: rest =>
    match Parser.toDigit16 high, Parser.toDigit16 low with
    | some high, some low => UInt8.ofNat (16 * high + low) :: percentDecode rest
    | _, _ => String.utf8EncodeChar '%' ++ percentDecode (high :: low :: rest)
  | char :: rest => String.utf8EncodeChar char ++ percentDecode rest

/-- The path has the template's segments, each with the arguments put in. -/
def KeepsShape (args : Json) (path : String) (pieces : List Piece) : Prop :=
  List.Forall₂ (fun segment piece => percentDecode segment = utf8 (segmentText args piece))
    (pathSegments path.toList) (templateSegments pieces)

end Pieces

section Decoding

variable {char : Char} {args : Json} {segment : List Piece}

theorem percentDecode_cons (rest : List Char) (plain : char ≠ '%') :
    percentDecode (char :: rest) = String.utf8EncodeChar char ++ percentDecode rest := by
  rw [percentDecode.eq_def]
  split
  · contradiction
  · rename_i same
    obtain ⟨rfl, -⟩ := (List.cons.injEq ..).mp same
    exact absurd rfl plain
  · rename_i same
    obtain ⟨rfl, rfl⟩ := (List.cons.injEq ..).mp same
    rfl

theorem toDigit16_upperHexDigit : ∀ value < 16,
    Parser.toDigit16 (upperHexDigit value) = some value := by
  decide

theorem utf8EncodeChar_ascii : ∀ value < 128,
    String.utf8EncodeChar (Char.ofNat value) = [UInt8.ofNat value] := by
  decide

/-- What `encodeByte` leaves as it is. -/
theorem escapesByte_eq_false {byte : UInt8} (kept : escapesByte byte = false) :
    byte.toNat < 0x7f ∧ Char.ofNat byte.toNat ≠ '%' ∧ Char.ofNat byte.toNat ≠ '/' := by
  simp only [escapesByte, Bool.or_eq_false_iff, decide_eq_false_iff_not, any_eq_false,
    beq_iff_eq] at kept
  obtain ⟨printable, unlisted⟩ := kept
  have own : (Char.ofNat byte.toNat).toNat = byte.toNat := Ascii.toNat_ofNat (by omega)
  refine ⟨by omega, fun same => unlisted '%' (by decide) ?_, fun same => unlisted '/' (by decide) ?_⟩
  · rw [← own, same]
  · rw [← own, same]

theorem percentDecode_encodeByte (byte : UInt8) (rest : List Char) :
    percentDecode (encodeByte byte ++ rest) = byte :: percentDecode rest := by
  have bound : byte.toNat < 256 := byte.toNat_lt
  unfold encodeByte
  split
  · have high := toDigit16_upperHexDigit (byte.toNat / 16) (by omega)
    have low := toDigit16_upperHexDigit (byte.toNat % 16) (by omega)
    have whole : 16 * (byte.toNat / 16) + byte.toNat % 16 = byte.toNat := by omega
    simp [percentEncodeByte, percentDecode, high, low, whole]
  · rename_i kept
    obtain ⟨small, plain, -⟩ := escapesByte_eq_false (Bool.not_eq_true _ ▸ kept)
    rw [singleton_append, percentDecode_cons rest plain,
      utf8EncodeChar_ascii byte.toNat (by omega), UInt8.ofNat_toNat]
    rfl

theorem percentDecode_encoded (bytes : List UInt8) (rest : List Char) :
    percentDecode (bytes.flatMap encodeByte ++ rest) = bytes ++ percentDecode rest := by
  induction bytes with
  | nil => rfl
  | cons byte bytes ih =>
    rw [flatMap_cons, append_assoc, percentDecode_encodeByte, ih, cons_append]

theorem slash_not_mem_encodeByte (byte : UInt8) : '/' ∉ encodeByte byte := by
  have listed : ∀ value < 16, upperHexDigit value ≠ '/' := by decide
  have bound : byte.toNat < 256 := byte.toNat_lt
  unfold encodeByte
  split
  · intro member
    simp only [percentEncodeByte, mem_cons, not_mem_nil, or_false] at member
    rcases member with percent | high | low
    · cases percent
    · exact listed _ (by omega) high.symm
    · exact listed _ (by omega) low.symm
  · rename_i kept
    obtain ⟨-, -, apart⟩ := escapesByte_eq_false (Bool.not_eq_true _ ▸ kept)
    rw [mem_singleton]
    exact apart.symm

theorem unreserved_plain (unreserved : isUnreserved char = true) : char ≠ '%' := by
  rintro rfl
  revert unreserved
  decide

theorem percentDecode_rendered (plain : ∀ piece ∈ segment, piece.Plain) :
    percentDecode (segment.flatMap (Piece.rendered args)) = utf8 (segmentText args segment) := by
  rw [utf8, segmentText, String.toList_ofList]
  induction segment with
  | nil => rfl
  | cons piece segment ih =>
    rw [forall_mem_cons] at plain
    have others := ih plain.2
    rw [flatMap_cons, flatMap_cons, flatMap_append, ← others]
    cases piece with
    | literal char =>
      have percent : char ≠ '%' := by
        rcases plain.1 with rfl | unreserved
        · decide
        · exact unreserved_plain unreserved
      rw [Piece.rendered, Piece.text, singleton_append, percentDecode_cons _ percent,
        flatMap_singleton]
    | placeholder name =>
      rw [Piece.rendered, Piece.text, encodePathSegmentArgument, percentDecode_encoded]
      rfl

end Decoding

section Rendering

variable {tool : ToolDefinition} {args : Json} {argName : String}

theorem renderPlaceholder_eq_ok {value : List Char}
    (ok : renderPlaceholder tool args argName = .ok value) :
    value = encodePathSegmentArgument (argumentText args argName) ∧
      isDotSegment (argumentText args argName) = false := by
  simp only [renderPlaceholder, bind_eq_ok, unit_exists_ok, requiredArgument, okOr_eq_ok,
    scalarArgumentToString, refuse_eq_ok, Except.ok.injEq] at ok
  obtain ⟨-, -, held, found, text, scalar, apart, rfl⟩ := ok
  have filled : argumentText args argName = text := by
    rw [argumentText, found, Option.bind_some, scalar, Option.getD_some]
  rw [filled]
  exact ⟨rfl, apart⟩

/-- Reading on inside a placeholder up to its closing brace. -/
theorem renderFrom_name {chars : List Char} (rest name : List Char) (open_ : '\x7d' ∉ chars) :
    renderFrom tool args (chars ++ '\x7d' :: rest) (some name) =
      renderFrom tool args ('\x7d' :: rest) (some (name ++ chars)) := by
  induction chars generalizing name with
  | nil => rw [nil_append, append_nil]
  | cons char chars ih =>
    rw [mem_cons, not_or] at open_
    rw [cons_append, renderFrom, if_neg (Ne.symm open_.1), ih _ open_.2,
      append_assoc, singleton_append]

theorem renderFrom_pieces {pieces : List Piece} {path : List Char}
    (plain : ∀ piece ∈ pieces, piece.Plain)
    (ok : renderFrom tool args (pieces.flatMap Piece.spelled) none = .ok path) :
    path = pieces.flatMap (Piece.rendered args) ∧
      ∀ name, Piece.placeholder name ∈ pieces → isDotSegment (argumentText args name) = false := by
  induction pieces generalizing path with
  | nil =>
    refine ⟨(Except.ok.inj ok).symm, fun name member => ?_⟩
    cases member
  | cons piece pieces ih =>
    rw [forall_mem_cons] at plain
    cases piece with
    | literal char =>
      have apart : char ≠ '\x7d' ∧ char ≠ '\x7b' := by
        rcases plain.1 with rfl | unreserved
        · decide
        · constructor <;>
          · rintro rfl
            revert unreserved
            decide
      simp only [flatMap_cons, Piece.spelled, singleton_append, renderFrom,
        if_neg apart.1, if_neg apart.2, bind_eq_ok, Except.ok.injEq] at ok
      obtain ⟨others, rendered, rfl⟩ := ok
      obtain ⟨rfl, safe⟩ := ih plain.2 rendered
      refine ⟨rfl, fun name member => safe name ?_⟩
      simpa using member
    | placeholder argName =>
      have opening : '\x7b' ≠ '\x7d' := by decide
      simp only [flatMap_cons, Piece.spelled, cons_append, append_assoc,
        nil_append, renderFrom, if_neg opening, if_true] at ok
      rw [renderFrom_name _ _ plain.1] at ok
      simp only [renderFrom, if_true, nil_append, String.ofList_toList, bind_eq_ok,
        Except.ok.injEq] at ok
      obtain ⟨value, placed, others, rendered, rfl⟩ := ok
      obtain ⟨rfl, apart⟩ := renderPlaceholder_eq_ok placed
      obtain ⟨rfl, safe⟩ := ih plain.2 rendered
      refine ⟨rfl, fun name member => ?_⟩
      rcases List.mem_cons.mp member with own | other
      · rw [Piece.placeholder.injEq] at own
        exact own ▸ apart
      · exact safe name other

end Rendering

section Splitting

variable {args : Json}

theorem splitOn_append_plain {separator : Char} {front rest : List Char}
    (plain : separator ∉ front) :
    (front ++ rest).splitOn separator = (rest.splitOn separator).modifyHead (front ++ ·) := by
  induction front with
  | nil =>
    cases split : rest.splitOn separator with
    | nil => rw [nil_append, split]; rfl
    | cons head tail => rw [nil_append, split]; rfl
  | cons char front ih =>
    rw [mem_cons, not_or] at plain
    have other : (char == separator) = false := beq_eq_false_iff_ne.mpr (Ne.symm plain.1)
    rw [cons_append, splitOn_cons_eq_if_modifyHead, other, ih plain.2, modifyHead_modifyHead]
    rfl

theorem splitOn_rendered (pieces : List Piece) :
    (pieces.flatMap (Piece.rendered args)).splitOn '/' =
      (pieces.splitOnP Piece.isSlash).map fun segment => segment.flatMap (Piece.rendered args) := by
  induction pieces with
  | nil => rfl
  | cons piece pieces ih =>
    rw [flatMap_cons, splitOnP_cons_eq_if_modifyHead]
    by_cases slash : piece = .literal '/'
    · subst slash
      have separates : Piece.isSlash (.literal '/') = true := rfl
      rw [if_pos separates, map_cons, ← ih, Piece.rendered,
        singleton_append, splitOn_cons_eq_if_modifyHead]
      rfl
    · have inside : Piece.isSlash piece = false := beq_eq_false_iff_ne.mpr slash
      have plain : '/' ∉ piece.rendered args := by
        cases piece with
        | literal char =>
          rw [Piece.rendered, mem_singleton]
          rintro rfl
          exact slash rfl
        | placeholder name =>
          rw [Piece.rendered, encodePathSegmentArgument, mem_flatMap]
          rintro ⟨byte, -, member⟩
          exact slash_not_mem_encodeByte byte member
      rw [splitOn_append_plain plain, ih, inside]
      cases pieces.splitOnP Piece.isSlash with
      | nil => rfl
      | cons head tail => rfl

end Splitting

section Collapsing

def isDot (segment : List Char) : Bool := isSingleDot segment || isDoubleDot segment

variable {segments : List (List Char)}

theorem collapseFrom_plain
    (plain : ∀ segment ∈ segments, isDot segment = false) (kept : List (List Char)) :
    collapseFrom kept segments = kept ++ segments := by
  induction segments generalizing kept with
  | nil => rw [collapseFrom, append_nil]
  | cons segment segments ih =>
    rw [forall_mem_cons, isDot, Bool.or_eq_false_iff] at plain
    simp only [collapseFrom, plain.1.1, plain.1.2, Bool.false_eq_true, if_false]
    rw [ih plain.2, append_assoc, singleton_append]

theorem collapseFrom_length (segments kept : List (List Char)) :
    (collapseFrom kept segments).length ≤ kept.length + segments.length := by
  induction segments generalizing kept with
  | nil => simp [collapseFrom]
  | cons segment segments ih =>
    have ending : (if segments.isEmpty then [[]] else [] : List (List Char)).length ≤ 1 := by
      split <;> simp
    simp only [collapseFrom, length_cons]
    split
    · refine (ih _).trans ?_
      rw [length_append, length_dropLast]
      omega
    · split
      · refine (ih _).trans ?_
        rw [length_append]
        omega
      · refine (ih _).trans ?_
        rw [length_append, length_singleton]
        omega

/-- A path keeps its number of segments only when none is a dot segment, or when the last
one is and an empty segment stands in its place. -/
theorem collapseFrom_full (kept : List (List Char))
    (full : (collapseFrom kept segments).length = kept.length + segments.length) :
    (∀ segment ∈ segments, isDot segment = false) ∨
      ∃ front last, segments = front ++ [last] ∧ isDot last = true ∧
        collapseFrom kept segments = kept ++ front ++ [[]] := by
  induction segments generalizing kept with
  | nil => exact .inl fun _ member => by cases member
  | cons segment segments ih =>
    have ending : (if segments.isEmpty then [[]] else [] : List (List Char)).length ≤ 1 := by
      split <;> simp
    rw [collapseFrom, length_cons] at full
    rw [collapseFrom]
    by_cases double : isDoubleDot segment = true
    · -- a parent segment takes one away unless it stands alone
      rw [if_pos double] at full ⊢
      have bound := collapseFrom_length segments
        (kept.dropLast ++ if segments.isEmpty then [[]] else [])
      rw [full, length_append, length_dropLast] at bound
      cases segments with
      | nil =>
        have alone : kept = [] := eq_nil_of_length_eq_zero (by omega)
        subst alone
        exact .inr ⟨[], segment, rfl, by rw [isDot, double, Bool.or_true], rfl⟩
      | cons next segments =>
        rw [isEmpty_cons, if_neg (by decide), length_nil] at bound
        omega
    · rw [if_neg double] at full ⊢
      by_cases single : isSingleDot segment = true
      · rw [if_pos single] at full ⊢
        have bound := collapseFrom_length segments (kept ++ if segments.isEmpty then [[]] else [])
        rw [full, length_append] at bound
        cases segments with
        | nil =>
          refine .inr ⟨[], segment, rfl, by rw [isDot, single, Bool.true_or], ?_⟩
          rw [append_nil]
          rfl
        | cons next segments =>
          rw [isEmpty_cons, if_neg (by decide), length_nil] at bound
          omega
      · rw [if_neg single] at full ⊢
        have plain : isDot segment = false := by
          rw [Bool.not_eq_true] at single double
          rw [isDot, single, double, Bool.or_self]
        have kept_full : (collapseFrom (kept ++ [segment]) segments).length =
            (kept ++ [segment]).length + segments.length := by
          rw [full, length_append, length_singleton]
          omega
        rcases ih _ kept_full with others | ⟨front, last, rfl, dots, collapsed⟩
        · exact .inl (List.forall_mem_cons.mpr ⟨plain, others⟩)
        · refine .inr ⟨segment :: front, last, rfl, dots, ?_⟩
          rw [collapsed, append_assoc kept, singleton_append]

theorem collapseFrom_free {kept : List (List Char)}
    (free : ∀ segment ∈ kept ++ segments, '/' ∉ segment) :
    ∀ segment ∈ collapseFrom kept segments, '/' ∉ segment := by
  induction segments generalizing kept with
  | nil => simpa [collapseFrom] using free
  | cons segment segments ih =>
    have ending : ∀ part ∈ (if segments.isEmpty then [[]] else [] : List (List Char)),
        '/' ∉ part := by
      split <;> simp
    simp only [forall_mem_append, forall_mem_cons] at free
    obtain ⟨before, own, after⟩ := free
    simp only [collapseFrom]
    split
    · refine ih (List.forall_mem_append.mpr ⟨?_, after⟩)
      refine List.forall_mem_append.mpr ⟨fun part member => ?_, ending⟩
      exact before part (dropLast_subset kept member)
    · split
      · exact ih (List.forall_mem_append.mpr
          ⟨List.forall_mem_append.mpr ⟨before, ending⟩, after⟩)
      · refine ih (List.forall_mem_append.mpr ⟨?_, after⟩)
        exact List.forall_mem_append.mpr ⟨before, by simpa using own⟩

theorem collapseFrom_ne_nil (some_ : segments ≠ [])
    (kept : List (List Char)) : collapseFrom kept segments ≠ [] := by
  induction segments generalizing kept with
  | nil => exact absurd rfl some_
  | cons segment segments ih =>
    cases segments with
    | nil =>
      simp only [collapseFrom, isEmpty_nil, if_true]
      split
      · simp
      · split <;> simp
    | cons next segments =>
      rw [collapseFrom]
      split
      · exact ih (by simp) _
      · split <;> exact ih (by simp) _

theorem pathSegments_urlPath {path : List Char} (some_ : pathSegments path ≠ []) :
    pathSegments (urlPath path).toList = collapseFrom [] (pathSegments path) := by
  have free : ∀ segment ∈ collapseFrom [] (pathSegments path), '/' ∉ segment := by
    refine collapseFrom_free fun segment member => ?_
    exact Text.not_mem_of_mem_splitOn (mem_of_mem_tail member)
  rw [pathSegments, urlPath, String.toList_ofList, splitOn_cons_eq_if_modifyHead,
    if_pos (beq_self_eq_true '/'), tail_cons]
  exact splitOn_intercalate '/' free (collapseFrom_ne_nil some_ [])

end Collapsing

section Dots

variable {args : Json} {segment : List Piece} {char target : Char} {text : List Char}

theorem eq_of_toLower (same : char.toLower = target) :
    char = target ∨
      ∃ value < 26, char = Char.ofNat (65 + value) ∧ target = Char.ofNat (97 + value) := by
  by_cases upper : 'A'.val ≤ char.val ∧ char.val ≤ 'Z'.val
  · have range : 65 ≤ char.toNat ∧ char.toNat ≤ 90 := upper
    have lowered : ∀ value < 26, (Char.ofNat (65 + value)).toLower = Char.ofNat (97 + value) := by
      decide
    have spelled : char = Char.ofNat (65 + (char.toNat - 65)) := by
      rw [Nat.add_sub_cancel' range.1, Char.ofNat_toNat]
    refine .inr ⟨char.toNat - 65, by omega, spelled, ?_⟩
    rw [← same, ← lowered _ (by omega), ← spelled]
  · rw [Char.toLower, dif_neg upper] at same
    exact .inl same

theorem toLower_eq_mark (mark : target ∈ ['.', '%', '2'])
    (same : char.toLower = target) : char = target := by
  have letter : ∀ value < 26, Char.ofNat (97 + value) ∉ ['.', '%', '2'] := by decide
  rcases eq_of_toLower same with equal | ⟨value, small, -, rfl⟩
  · exact equal
  · exact absurd mark (letter value small)

theorem toLower_eq_e (same : char.toLower = 'e') : char = 'e' ∨ char = 'E' := by
  have letter : ∀ value < 26, 'e' = Char.ofNat (97 + value) → Char.ofNat (65 + value) = 'E' := by
    decide
  rcases eq_of_toLower same with equal | ⟨value, small, rfl, lower⟩
  · exact .inl equal
  · exact .inr (letter value small lower)

/-- A dot, as it is or escaped. -/
def dotSpellings : List (List Char) := [['.'], ['%', '2', 'e'], ['%', '2', 'E']]

theorem map_toLower_dot (same : text.map Char.toLower = ['.']) : text ∈ dotSpellings := by
  obtain ⟨char, rfl, dot⟩ := List.map_eq_singleton_iff.mp same
  rw [toLower_eq_mark (by decide) dot]
  decide

theorem map_toLower_escape (same : text.map Char.toLower = ['%', '2', 'e']) :
    text ∈ dotSpellings := by
  obtain ⟨percent, text, rfl, isPercent, same⟩ := List.map_eq_cons_iff.mp same
  obtain ⟨two, text, rfl, isTwo, same⟩ := List.map_eq_cons_iff.mp same
  obtain ⟨letter, rfl, isLetter⟩ := List.map_eq_singleton_iff.mp same
  rw [toLower_eq_mark (by decide) isPercent, toLower_eq_mark (by decide) isTwo]
  rcases toLower_eq_e isLetter with rfl | rfl <;> decide

/-- The bytes of a dot segment. -/
theorem percentDecode_isDot (dots : isDot text = true) :
    percentDecode text = [46] ∨ percentDecode text = [46, 46] := by
  have one : ∀ dot ∈ dotSpellings, percentDecode dot = [46] := by decide
  have two : ∀ first ∈ dotSpellings, ∀ second ∈ dotSpellings,
      percentDecode (first ++ second) = [46, 46] := by
    decide
  have pair : ∀ {left right : List Char}, (∀ part, part.map Char.toLower = left →
      part ∈ dotSpellings) → (∀ part, part.map Char.toLower = right → part ∈ dotSpellings) →
      text.map Char.toLower = left ++ right → percentDecode text = [46, 46] := by
    intro left right first second same
    obtain ⟨front, back, rfl, fronts, backs⟩ := List.map_eq_append_iff.mp same
    exact two _ (first _ fronts) _ (second _ backs)
  have dot := fun part => @map_toLower_dot part
  have escape := fun part => @map_toLower_escape part
  simp only [isDot, isSingleDot, isDoubleDot, Bool.or_eq_true, contains_eq_mem,
    decide_eq_true_eq, mem_cons, not_mem_nil, or_false] at dots
  rcases dots with (same | same) | same | same | same | same
  · exact .inl (one _ (map_toLower_dot same))
  · exact .inl (one _ (map_toLower_escape same))
  · exact .inr (pair dot dot same)
  · exact .inr (pair dot escape same)
  · exact .inr (pair escape dot same)
  · exact .inr (pair escape escape same)

section

variable (empty : ∀ name, Piece.placeholder name ∈ segment → argumentText args name = "")

include empty

theorem rendered_of_empty : segment.flatMap (Piece.rendered args) = literals segment := by
  refine flatMap_congr fun piece member => ?_
  cases piece with
  | literal char => rfl
  | placeholder name =>
    rw [Piece.rendered, empty name member]
    rfl

theorem text_of_empty : segment.flatMap (Piece.text args) = literals segment := by
  refine flatMap_congr fun piece member => ?_
  cases piece with
  | literal char => rfl
  | placeholder name =>
    rw [Piece.text, empty name member]
    rfl

end

theorem isDot_of_leavesDots (leaves : LeavesDots args segment) :
    isDot (segment.flatMap (Piece.rendered args)) = true := by
  rw [rendered_of_empty leaves.2]
  have dots : ∀ text ∈ [['.'], ['.', '.']], isDot text = true := by decide
  exact dots _ leaves.1

theorem leavesDots_of_isDot (plain : ∀ piece ∈ segment, piece.Plain)
    (safe : ∀ name, Piece.placeholder name ∈ segment →
      isDotSegment (argumentText args name) = false)
    (dots : isDot (segment.flatMap (Piece.rendered args)) = true) : LeavesDots args segment := by
  have texts : segmentText args segment = "." ∨ segmentText args segment = ".." := by
    rcases percentDecode_isDot dots with decoded | decoded
    · exact .inl (utf8_inj ((percentDecode_rendered plain).symm.trans decoded))
    · exact .inr (utf8_inj ((percentDecode_rendered plain).symm.trans decoded))
  have spelled : segment.flatMap (Piece.text args) ∈ [['.'], ['.', '.']] := by
    have same : segment.flatMap (Piece.text args) = (segmentText args segment).toList := by
      rw [segmentText, String.toList_ofList]
    rw [same]
    rcases texts with text | text <;> rw [text] <;> decide
  have empty : ∀ name, Piece.placeholder name ∈ segment → argumentText args name = "" := by
    intro name member
    have inside : (argumentText args name).toList.Sublist (segment.flatMap (Piece.text args)) := by
      have listed : Piece.text args (.placeholder name) ∈ segment.map (Piece.text args) :=
        mem_map_of_mem member
      rw [flatMap_def]
      exact (infix_of_mem_flatten listed).sublist
    have short : ∀ text : List Char, text.Sublist ['.', '.'] →
        text = [] ∨ text = ['.'] ∨ text = ['.', '.'] := by
      intro text part
      obtain ⟨count, small, rfl⟩ := (sublist_replicate_iff (m := 2)).mp part
      match count, small with
      | 0, _ => exact .inl rfl
      | 1, _ => exact .inr (.inl rfl)
      | 2, _ => exact .inr (.inr rfl)
    have dotted : (segment.flatMap (Piece.text args)).Sublist ['.', '.'] := by
      have parts : ∀ text ∈ [['.'], ['.', '.']], text.Sublist ['.', '.'] := by decide
      exact parts _ spelled
    have apart := safe name member
    rw [isDotSegment, Bool.or_eq_false_iff, beq_eq_false_iff_ne, beq_eq_false_iff_ne] at apart
    rcases short _ (inside.trans dotted) with none_ | one | two
    · exact String.toList_inj.mp none_
    · exact absurd (String.toList_inj.mp one) apart.1
    · exact absurd (String.toList_inj.mp two) apart.2
  exact ⟨text_of_empty empty ▸ spelled, empty⟩

end Dots

section Shape

variable {tool : ToolDefinition} {args : Json} {pieces : List Piece}

theorem mem_of_mem_templateSegments {segment : List Piece} {piece : Piece}
    (listed : segment ∈ templateSegments pieces) (member : piece ∈ segment) : piece ∈ pieces :=
  (Text.mem_of_mem_splitOnP (mem_of_mem_tail listed) member).1

theorem pathSegments_rendered (args : Json) (pieces : List Piece) :
    pathSegments (pieces.flatMap (Piece.rendered args)) =
      (templateSegments pieces).map fun segment => segment.flatMap (Piece.rendered args) := by
  rw [pathSegments, splitOn_rendered, templateSegments, map_tail]

theorem urlPath_keepsShape (plain : ∀ piece ∈ pieces, piece.Plain)
    (absolute : templateSegments pieces ≠ [])
    (safe : ∀ name, Piece.placeholder name ∈ pieces →
      isDotSegment (argumentText args name) = false) :
    KeepsShape args (urlPath (pieces.flatMap (Piece.rendered args))) pieces ↔
      ∀ segment ∈ templateSegments pieces, ¬ LeavesDots args segment := by
  have decodes : ∀ segment ∈ templateSegments pieces,
      percentDecode (segment.flatMap (Piece.rendered args)) = utf8 (segmentText args segment) :=
    fun segment listed => percentDecode_rendered fun piece member =>
      plain piece (mem_of_mem_templateSegments listed member)
  have segments := pathSegments_rendered args pieces
  have some_ : pathSegments (pieces.flatMap (Piece.rendered args)) ≠ [] := by
    rw [segments]
    exact fun none_ => absolute (List.map_eq_nil_iff.mp none_)
  rw [KeepsShape, pathSegments_urlPath some_, segments]
  constructor
  · intro shaped segment listed leaves
    have dots := isDot_of_leavesDots leaves
    have full := shaped.length_eq
    rcases collapseFrom_full [] (full.trans (by rw [length_nil, Nat.zero_add, length_map]))
      with none_ | ⟨front, last, split, ends, collapsed⟩
    · have kept := none_ _ (mem_map_of_mem listed)
      rw [dots] at kept
      cases kept
    · -- the last segment is left empty, and its text is not
      obtain ⟨before, after, parts, rfl, rest⟩ := List.map_eq_append_iff.mp split
      obtain ⟨final, rfl, rfl⟩ := List.map_eq_singleton_iff.mp rest
      have shapedLast := forall₂_drop_append _ _ _ (parts ▸ collapsed ▸ shaped)
      rw [nil_append, drop_left' (length_map _), forall₂_cons] at shapedLast
      have text := decodes final (parts ▸ mem_append_right _ mem_cons_self)
      rw [← shapedLast.1] at text
      rcases percentDecode_isDot ends with bytes | bytes <;>
      · rw [text] at bytes
        cases bytes
  · intro free
    have apart : ∀ segment ∈ (templateSegments pieces).map fun segment =>
        segment.flatMap (Piece.rendered args), isDot segment = false := by
      rw [forall_mem_map]
      intro segment listed
      refine Bool.not_eq_true _ ▸ fun dots => free segment listed ?_
      refine leavesDots_of_isDot (fun piece member => ?_) (fun name member => ?_) dots
      · exact plain piece (mem_of_mem_templateSegments listed member)
      · exact safe name (mem_of_mem_templateSegments listed member)
    rw [collapseFrom_plain apart, nil_append, forall₂_map_left_iff, forall₂_same]
    exact decodes

theorem templateSegments_ne_nil {rest : List Char}
    (spelled : pieces.flatMap Piece.spelled = '/' :: rest) : templateSegments pieces ≠ [] := by
  cases pieces with
  | nil => cases spelled
  | cons piece pieces =>
    cases piece with
    | literal char =>
      obtain ⟨rfl, -⟩ := List.cons.inj spelled
      rw [templateSegments, splitOnP_cons_eq_if_modifyHead]
      exact splitOnP_ne_nil _ _
    | placeholder name =>
      obtain ⟨brace, -⟩ := List.cons.inj spelled
      cases brace

variable [HttpTexts] {upstreamOrigin : Option String} {request : ToolUpstreamRequest}

theorem buildRequest_path (ok : buildRequest upstreamOrigin tool args = .ok request) :
    ∃ path, renderPathTemplate tool args = .ok path ∧ request.path = urlPath path := by
  simp only [buildRequest, bind_eq_ok, unit_exists_ok, Prod.exists, Except.ok.injEq] at ok
  obtain ⟨method, -, -, path, rendered, origin, -, url, parsed, pairs, -, contentType, body, -, -,
    rfl⟩ := ok
  refine ⟨path, rendered, ?_⟩
  have same : url.path = urlPath path := by
    unfold parseRequestUrl Url.parse at parsed
    split at parsed
    · cases parsed
    · rename_i parse
      split at parse
      · cases parse
      · cases parse
        cases parsed
        rfl
  rw [ToolUpstreamRequest.path, ← same]
  split <;> rfl

/-- A built request's path has the template's segments, each the template's with the
arguments put in, exactly when no segment is left with only its own dots. -/
theorem buildRequest_shape (plain : ∀ piece ∈ pieces, piece.Plain)
    (spelled : tool.upstream.pathTemplate.toList = pieces.flatMap Piece.spelled)
    (ok : buildRequest upstreamOrigin tool args = .ok request) :
    KeepsShape args request.path pieces ↔
      ∀ segment ∈ templateSegments pieces, ¬ LeavesDots args segment := by
  obtain ⟨path, rendered, same⟩ := buildRequest_path ok
  simp only [renderPathTemplate, bind_eq_ok, unit_exists_ok, refuse_eq_ok, spelled] at rendered
  obtain ⟨starts, -, filled⟩ := rendered
  obtain ⟨rfl, safe⟩ := renderFrom_pieces plain filled
  rw [same]
  refine urlPath_keepsShape plain ?_ safe
  rw [Bool.not_eq_false_eq_eq_true, Text.startsWith_iff] at starts
  obtain ⟨rest, whole⟩ := starts
  have slash : pieces.flatMap Piece.spelled = '/' :: rest.toList := by
    rw [← spelled, whole, String.toList_append]
    rfl
  exact templateSegments_ne_nil slash

end Shape

section Sample

@[reducible] def sampleHttpTexts : HttpTexts where
  parseMethod := .ok
  urlProblem _ := none
  toVec _ := .ok []

attribute [local instance] sampleHttpTexts

/-- A tool whose path has dots before an argument. -/
def suffixTool : ToolDefinition where
  name := "list"
  inputSchema := .object []
  upstream := { method := "GET", pathTemplate := "/files/..\x7bsuffix\x7d/list" }

def suffixPieces : List Piece :=
  "/files/..".toList.map .literal ++ [.placeholder "suffix"] ++ "/list".toList.map .literal

def suffixArguments (suffix : String) : Json := .object [("suffix", .string suffix)]

def suffixRequest (path : String) : ToolUpstreamRequest where
  method := "GET"
  url := { origin := "http://upstream", path }
  contentType := none
  body := none

theorem suffixTool_plain : ∀ piece ∈ suffixPieces, piece.Plain := by
  decide

/-- The empty argument leaves `..` a segment of its own, and the URL goes up with it. -/
theorem suffixTool_escapes :
    (∀ piece ∈ suffixPieces, piece.Plain) ∧
      suffixTool.upstream.pathTemplate.toList = suffixPieces.flatMap Piece.spelled ∧
      (∀ segment ∈ templateSegments suffixPieces,
        segment ≠ [.literal '.'] ∧ segment ≠ [.literal '.', .literal '.']) ∧
      buildRequest (some "http://upstream") suffixTool (suffixArguments "") =
        .ok (suffixRequest "/list") ∧
      ¬ KeepsShape (suffixArguments "") (suffixRequest "/list").path suffixPieces := by
  refine ⟨suffixTool_plain, by decide, by decide, by rfl, fun shaped => ?_⟩
  have full := shaped.length_eq
  revert full
  decide

theorem suffixTool_leaves_no_dots :
    ∀ segment ∈ templateSegments suffixPieces, ¬ LeavesDots (suffixArguments "a") segment := by
  have spared : ∀ segment ∈ templateSegments suffixPieces,
      literals segment ∈ [['.'], ['.', '.']] → Piece.placeholder "suffix" ∈ segment := by
    decide
  intro segment listed leaves
  have empty := leaves.2 "suffix" (spared segment listed leaves.1)
  revert empty
  decide

theorem buildRequest_shape_sample :
    buildRequest (some "http://upstream") suffixTool (suffixArguments "a") =
        .ok (suffixRequest "/files/..a/list") ∧
      KeepsShape (suffixArguments "a") (suffixRequest "/files/..a/list").path suffixPieces := by
  have built : buildRequest (some "http://upstream") suffixTool (suffixArguments "a") =
      .ok (suffixRequest "/files/..a/list") := rfl
  exact ⟨built, (buildRequest_shape suffixTool_plain (by decide) built).mpr
    suffixTool_leaves_no_dots⟩

end Sample

end GreenGateway.Tools
