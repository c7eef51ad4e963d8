import GreenGateway.Config.StrictComplete

/-! The strict reader on canonical text: it reads back the value the text was written
from, so one text is written for one value only. -/

namespace GreenGateway.Config

open Foundation List

/-- The bounds of a resource, at any depth. -/
def unbounded (depth : Nat) : Limits := { resourceLimits with depth }

namespace Grammar

section Texts

/-- A spelled character derives that character, whatever follows. -/
theorem chars_escape (char : Char) {decoded input rest : List Char}
    (more : Chars decoded input rest) :
    Chars (char :: decoded) (Json.escape char ++ input) rest := by
  unfold Json.escape
  split_ifs with quote slash backspace tab newline feed carriage control
  · exact .escaped (by simp [escapes, quote]) more
  · exact .escaped (by simp [escapes, slash]) more
  · exact .escaped (by simp [escapes, backspace]) more
  · exact .escaped (by simp [escapes, tab]) more
  · exact .escaped (by simp [escapes, newline]) more
  · exact .escaped (by simp [escapes, feed]) more
  · exact .escaped (by simp [escapes, carriage]) more
  · have zero : HexDigit '0' 0 := ⟨by decide, .inl rfl⟩
    have unit : Unit16 ['0', '0', Json.hexDigit (char.toNat / 16), Json.hexDigit (char.toNat % 16)]
        char.toNat := by
      refine ⟨rfl, [0, 0, char.toNat / 16, char.toNat % 16],
        .cons zero (.cons zero (.cons ⟨by omega, .inl rfl⟩ (.cons ⟨by omega, .inl rfl⟩ .nil))), ?_⟩
      simp only [foldl_cons, foldl_nil]
      omega
    have spelled := Chars.scalar unit (by omega) more
    rwa [Char.ofNat_toNat] at spelled
  · exact .unescaped ⟨Nat.not_lt.mp control, quote, slash⟩ more

theorem quoted_derives (text : String) (rest : List Char) :
    Quoted text (Json.quoted text ++ rest) rest := by
  rw [Json.quoted, cons_append, append_assoc, singleton_append]
  refine .intro ?_
  induction text.toList with
  | nil => exact .close
  | cons char chars ih =>
    rw [flatMap_cons, append_assoc]
    exact chars_escape char ih

theorem toDigits_head {value : Nat} (positive : 0 < value) :
    (Nat.toDigits 10 value).head? ≠ some '0' := by
  induction value using Nat.strongRecOn with
  | ind value ih =>
    by_cases single : value < 10
    · have listed : ∀ digit < 10, 0 < digit → Nat.digitChar digit ≠ '0' := by decide
      rw [Nat.toDigits_of_lt_base single, List.head?_cons, Ne, Option.some.injEq]
      exact listed value single positive
    · have leading := ih (value / 10) (by omega) (by omega)
      rw [Nat.toDigits_of_base_le (by decide) (by omega),
        List.head?_append_of_ne_nil _ Nat.toDigits_ne_nil]
      exact leading

theorem whole_toString (value : Nat) : Whole (toString value).toList := by
  have digits : (toString value).toList = Nat.toDigits 10 value := Nat.toList_repr
  cases value with
  | zero => exact .zero
  | succ value =>
    have leading := toDigits_head (Nat.succ_pos value)
    rw [Nat.succ_eq_add_one, ← digits] at leading
    obtain ⟨head, tail, split, digit⟩ := toString_head (value + 1)
    have all : ∀ char ∈ (toString (value + 1)).toList, char.isDigit = true := fun char member =>
      toString_digits member
    rw [split, List.head?_cons, Ne, Option.some.injEq] at leading
    rw [split] at all ⊢
    exact .digits digit leading (List.forall_mem_cons.mp all).2

/-- An integer's decimal text is a number of the grammar. -/
theorem isNumber_toString (value : Int) : IsNumber (toString value).toList := by
  cases value with
  | ofNat value =>
    exact ⟨[], _, [], [], ⟨.inl rfl, whole_toString value, .absent, .absent⟩,
      by rw [append_nil, append_nil, nil_append]; rfl⟩
  | negSucc value =>
    exact ⟨['-'], _, [], [], ⟨.inr rfl, whole_toString (value + 1), .absent, .absent⟩,
      by rw [toString_neg]; simp⟩

theorem whitespace_none (rest : List Char) : Whitespace rest rest := ⟨[], nofun, rfl⟩

mutual

/-- The numbers of a value are numbers of the grammar. -/
def Numeric : Json → Prop
  | .null | .bool _ | .string _ => True
  | .number text => IsNumber text.toList
  | .array items => NumericItems items
  | .object members => NumericMembers members

def NumericItems : List Json → Prop
  | [] => True
  | item :: rest => Numeric item ∧ NumericItems rest

def NumericMembers : List (String × Json) → Prop
  | [] => True
  | (_, value) :: rest => Numeric value ∧ NumericMembers rest

end

mutual

/-- A value derives from its text. -/
theorem derives_text : ∀ (value : Json) (_ : Numeric value) (rest : List Char),
    Derives (.value value) (value.text ++ rest) rest
  | .null, _, _ => .null
  | .bool true, _, _ => .true_
  | .bool false, _, _ => .false_
  | .string text, _, rest => .string (quoted_derives text rest)
  | .number text, numeric, rest => by
    have derives : Derives (.value (.number (String.ofList text.toList))) (text.toList ++ rest) rest :=
      .number numeric
    rwa [String.ofList_toList] at derives
  | .array [], _, rest => .emptyArray (whitespace_none (']' :: rest))
  | .array (item :: items), numeric, rest => by
    rw [Json.text, cons_append, append_assoc, singleton_append]
    exact .array (derives_itemTexts (item :: items) nofun numeric rest)
  | .object [], _, rest => .emptyObject (whitespace_none ('\x7d' :: rest))
  | .object ((name, value) :: members), numeric, rest => by
    rw [Json.text, cons_append, append_assoc, singleton_append]
    exact .object (derives_memberTexts ((name, value) :: members) nofun numeric rest)

theorem derives_itemTexts : ∀ (items : List Json) (_ : items ≠ []) (_ : NumericItems items)
    (rest : List Char), Derives (.items items)
      (Json.separated (Json.itemTexts items) ++ ']' :: rest) rest
  | [], some_, _, _ => absurd rfl some_
  | [item], _, numeric, rest =>
    .lastItem (whitespace_none _) (derives_text item numeric.1 (']' :: rest)) (whitespace_none _)
  | item :: other :: items, _, numeric, rest => by
    have opened : Json.separated (Json.itemTexts (item :: other :: items)) =
        item.text ++ ',' :: Json.separated (Json.itemTexts (other :: items)) := rfl
    rw [opened, append_assoc, cons_append]
    exact .item (whitespace_none _) (derives_text item numeric.1 _) (whitespace_none _)
      (derives_itemTexts (other :: items) nofun numeric.2 rest)

theorem derives_memberTexts : ∀ (members : List (String × Json)) (_ : members ≠ [])
    (_ : NumericMembers members) (rest : List Char), Derives (.members members)
      (Json.separated (Json.memberTexts members) ++ '\x7d' :: rest) rest
  | [], some_, _, _ => absurd rfl some_
  | [(name, value)], _, numeric, rest => by
    rw [Json.memberTexts, Json.memberTexts, Json.separated, Json.member, List.append_assoc,
      List.cons_append]
    exact .lastMember (whitespace_none _) (quoted_derives name _) (whitespace_none _)
      (whitespace_none _) (derives_text value numeric.1 ('\x7d' :: rest)) (whitespace_none _)
  | (name, value) :: (other, following) :: members, _, numeric, rest => by
    have opened : Json.separated (Json.memberTexts ((name, value) :: (other, following) :: members)) =
        Json.quoted name ++ ':' :: (value.text ++
          ',' :: Json.separated (Json.memberTexts ((other, following) :: members))) := by
      simp [Json.memberTexts, Json.separated, Json.member]
    rw [opened, append_assoc, cons_append, append_assoc, cons_append]
    exact .member (whitespace_none _) (quoted_derives name _) (whitespace_none _)
      (whitespace_none _) (derives_text value numeric.1 _) (whitespace_none _)
      (derives_memberTexts ((other, following) :: members) nofun numeric.2 rest)

end

theorem document_text {value : Json} (numeric : Numeric value) :
    Document value (String.ofList value.text).toList := by
  have derives := derives_text value numeric []
  rw [append_nil] at derives
  rw [String.toList_ofList]
  exact ⟨_, [], whitespace_none _, derives, whitespace_none _⟩

mutual

theorem numeric_of_normal : ∀ value : Json, Normal value → Numeric value
  | .null, _ | .bool _, _ | .string _, _ => trivial
  | .number _, ⟨value, _, rfl⟩ => isNumber_toString value
  | .array items, normal => numericItems_of_normal items normal
  | .object members, normal => numericMembers_of_normal members normal.2.2

theorem numericItems_of_normal : ∀ items : List Json, NormalItems items → NumericItems items
  | [], _ => trivial
  | item :: rest, normal =>
    ⟨numeric_of_normal item normal.1, numericItems_of_normal rest normal.2⟩

theorem numericMembers_of_normal : ∀ members : List (String × Json), NormalMembers members →
    NumericMembers members
  | [], _ => trivial
  | (_, value) :: rest, normal =>
    ⟨numeric_of_normal value normal.1, numericMembers_of_normal rest normal.2⟩

end

end Texts

section Unbounded

variable {limit : Nat}

theorem nameAllowed_unbounded (name : String) : NameAllowed (unbounded limit) name :=
  ⟨nofun, nofun, nofun⟩

mutual

/-- Only depth bounds a resource. -/
theorem allowed_unbounded : ∀ (open_ : Nat) (value : Json) (_ : Normal value)
    (_ : open_ + depth value ≤ limit), Allowed (unbounded limit) open_ value
  | _, .null, _, _ | _, .bool _, _, _ | _, .number _, _, _ => trivial
  | _, .string _, _, _ => ⟨nofun, nofun⟩
  | open_, .array items, normal, deep => by
    rw [depth] at deep
    exact ⟨show open_ + 1 ≤ limit by omega, nofun,
      allowedItems_unbounded (open_ + 1) items normal (by omega)⟩
  | open_, .object members, normal, deep => by
    rw [depth] at deep
    exact ⟨show open_ + 1 ≤ limit by omega, nofun, normal.2.1,
      allowedMembers_unbounded (open_ + 1) members normal.2.2 (by omega)⟩

theorem allowedItems_unbounded : ∀ (open_ : Nat) (items : List Json) (_ : NormalItems items)
    (_ : open_ + itemsDepth items ≤ limit), AllowedItems (unbounded limit) open_ items
  | _, [], _, _ => trivial
  | open_, item :: rest, normal, deep => by
    rw [itemsDepth] at deep
    exact ⟨allowed_unbounded open_ item normal.1 (by omega),
      allowedItems_unbounded open_ rest normal.2 (by omega)⟩

theorem allowedMembers_unbounded : ∀ (open_ : Nat) (members : List (String × Json))
    (_ : NormalMembers members) (_ : open_ + membersDepth members ≤ limit),
    AllowedMembers (unbounded limit) open_ members
  | _, [], _, _ => trivial
  | open_, (name, value) :: rest, normal, deep => by
    rw [membersDepth] at deep
    exact ⟨nameAllowed_unbounded name, allowed_unbounded open_ value normal.1 (by omega),
      allowedMembers_unbounded open_ rest normal.2 (by omega)⟩

end

end Unbounded

end Grammar

namespace Parser

open Grammar

section Texts

variable [Codecs] {limit : Nat}

/-- The node denotes the value whose normal form this is. -/
def Reads (value : Json) (node : Node) : Prop := Integral node.toJson ∧ settle node.toJson = value

/-- The members of an object are the ones read, in whatever order it keeps them. -/
theorem reads_object {members : List (String × Json)} {entries : List (String × Position × Node)}
    (sorted : members.Pairwise NameOrder) (distinct : (members.map Prod.fst).Nodup)
    (integral : IntegralMembers (membersToJson entries))
    (settled : settleMembers (membersToJson entries) = members) (position : Position) :
    Reads (.object members) (.object entries position) := by
  have names : ((membersToJson entries).map Prod.fst).Nodup := by
    rw [← settleMembers_names, settled]
    exact distinct
  have kept := Json.foldl_insertMember_perm names [] fun _ _ => not_mem_nil
  rw [append_nil] at kept
  refine ⟨⟨(kept.map Prod.fst).nodup_iff.mpr names, ?_⟩, ?_⟩
  · rw [integralMembers_iff] at integral ⊢
    intro member listed
    exact integral member (kept.mem_iff.mp listed)
  · have reordered : members.Perm (settleMembers ((membersToJson entries).foldl
        (fun held member => Json.insertMember member.1 member.2 held) [])) := by
      rw [← settled, settleMembers_eq, settleMembers_eq]
      exact (kept.map _).symm
    rw [Node.toJson, Json.ofMembers, settle, ← sorted_of_perm distinct reordered,
      sorted.insertionSort_eq]

mutual

theorem reads_of_represents : ∀ (node : Node) (value : Json), Normal value →
    Represents .any node value → Reads value node
  | .null _, .null, _, _ => ⟨trivial, rfl⟩
  | .bool _ _, .bool _, _, same => ⟨trivial, congrArg Json.bool same⟩
  | .string _ _, .string _, _, same => ⟨trivial, congrArg Json.string same⟩
  | .number _ position, .number _, ⟨value, safe, rfl⟩, same => by
    rw [same.2]
    have denotes := Denotes.toString value
    exact ⟨⟨value, safe, denotes⟩, congrArg Json.number (settleNumber_of_denotes denotes safe)⟩
  | .integer _ _, .number _, _, same => nomatch same.1
  | .array items _, .array values, normal, same =>
    have reads := readsItems_of_represents items values normal same
    ⟨reads.1, congrArg Json.array reads.2⟩
  | .object entries position, .object members, normal, same =>
    have reads := readsMembers_of_represents entries members normal.2.2 same
    reads_object normal.1 normal.2.1 reads.1 reads.2 position

theorem readsItems_of_represents : ∀ (items : List Node) (values : List Json), NormalItems values →
    RepresentsItems .any items values →
    IntegralItems (itemsToJson items) ∧ settleItems (itemsToJson items) = values
  | [], [], _, _ => ⟨trivial, rfl⟩
  | item :: items, value :: values, normal, same =>
    have first := reads_of_represents item value normal.1 same.1
    have more := readsItems_of_represents items values normal.2 same.2
    ⟨⟨first.1, more.1⟩, congrArg₂ List.cons first.2 more.2⟩

theorem readsMembers_of_represents : ∀ (entries : List (String × Position × Node))
    (members : List (String × Json)), NormalMembers members →
    RepresentsMembers .any entries members →
    IntegralMembers (membersToJson entries) ∧ settleMembers (membersToJson entries) = members
  | [], [], _, _ => ⟨trivial, rfl⟩
  | (_, _, node) :: entries, (_, value) :: members, normal, same =>
    have first := reads_of_represents node value normal.1 same.2.1
    have more := readsMembers_of_represents entries members normal.2 same.2.2
    ⟨⟨first.1, more.1⟩, congrArg₂ List.cons (Prod.ext same.1 first.2) more.2⟩

end

theorem parse_text {value : Json} (normal : Normal value) (shallow : depth value ≤ limit) :
    ∃ node, parse (String.ofList value.text) (unbounded limit) = .ok node ∧ Reads value node := by
  have accepted : Accepted (unbounded limit) value :=
    ⟨allowed_unbounded 0 value normal ((Nat.zero_add _).trans_le shallow), nofun⟩
  obtain ⟨node, read, represents⟩ :=
    parse_complete (document_text (numeric_of_normal value normal)) accepted
  exact ⟨node, read, reads_of_represents node value normal represents⟩

theorem normal_text_inj {value other : Json} (normal : Normal value) (normal' : Normal other)
    (same : value.text = other.text) : value = other := by
  obtain ⟨node, read, reads⟩ := parse_text normal (le_max_left (depth value) (depth other))
  obtain ⟨node', read', reads'⟩ := parse_text normal' (le_max_right (depth value) (depth other))
  rw [← same, read] at read'
  obtain rfl : node = node' := Except.ok.inj read'
  exact reads.2.symm.trans reads'.2

end Texts

end Parser

section CanonicalForm

/-- The frame a semantic digest is taken of. -/
def semanticFrame (mediaType schemaVersion text : String) : List UInt8 :=
  framed "semantic" mediaType schemaVersion (utf8 text)

/-- A text whose length a frame can hold. -/
def Framable (text : String) : Prop := (utf8 text).length < 2 ^ 64

variable [Codecs] {value other : Json}

/-- Canonical texts agree exactly where the values do. -/
theorem canonicalJson_eq_iff (integral : Integral value) (integral' : Integral other) :
    canonicalJson value = canonicalJson other ↔ Equal value other := by
  rw [canonicalJson_settle integral, canonicalJson_settle integral', Except.ok.injEq,
    equal_iff value other integral integral']
  constructor
  · intro same
    exact Parser.normal_text_inj (settle_normal value integral) (settle_normal other integral')
      (String.ofList_injective same)
  · intro same
    rw [same]

/-- The strict reader takes a canonical document back to its value. -/
theorem parse_canonicalJson (integral : Integral value) (shallow : depth value ≤ maxDepth)
    {text : String} (written : canonicalJson value = .ok text) :
    ∃ node, Parser.parse text resourceLimits = .ok node ∧ Equal node.toJson value := by
  rw [canonicalJson_settle integral, Except.ok.injEq] at written
  subst written
  have settled : depth (settle value) ≤ maxDepth := (depth_settle value).trans_le shallow
  obtain ⟨node, read, reads⟩ := Parser.parse_text (settle_normal value integral) settled
  exact ⟨node, read, (equal_iff node.toJson value reads.1 integral).mpr reads.2⟩

/-- Canonical JSON is a canonical form: safe-integer values have equal bytes exactly when
they are equal as JSON, the strict reader takes the bytes back to the value, and the frame
of a semantic digest determines media type, schema version and value. -/
theorem canonicalJson_canonicalForm (integral : Integral value) (integral' : Integral other) :
    ∃ text text', canonicalJson value = .ok text ∧ canonicalJson other = .ok text' ∧
      (utf8 text = utf8 text' ↔ Equal value other) ∧
      (depth value ≤ maxDepth →
        ∃ node, Parser.parse text resourceLimits = .ok node ∧ Equal node.toJson value) ∧
      ∀ mediaType schemaVersion mediaType' schemaVersion',
        semanticDigest mediaType schemaVersion value = .ok ("sha256:" ++
          hexEncode (Codecs.sha256 (semanticFrame mediaType schemaVersion text))) ∧
        (Framable mediaType → Framable mediaType' → Framable schemaVersion →
          Framable schemaVersion' → Framable text → Framable text' →
          (semanticFrame mediaType schemaVersion text =
              semanticFrame mediaType' schemaVersion' text' ↔
            mediaType = mediaType' ∧ schemaVersion = schemaVersion' ∧ Equal value other)) := by
  obtain ⟨text, written⟩ : ∃ text, canonicalJson value = .ok text :=
    ⟨_, canonicalJson_settle integral⟩
  obtain ⟨text', written'⟩ : ∃ text, canonicalJson other = .ok text :=
    ⟨_, canonicalJson_settle integral'⟩
  have equal : text = text' ↔ Equal value other := by
    rw [← canonicalJson_eq_iff integral integral', written, written', Except.ok.injEq]
  refine ⟨text, text', written, written', ?_, fun shallow =>
    parse_canonicalJson integral shallow written, ?_⟩
  · rw [← equal]
    exact ⟨utf8_inj, fun same => by rw [same]⟩
  · intro mediaType schemaVersion mediaType' schemaVersion'
    refine ⟨?_, fun media media' version version' payload payload' => ?_⟩
    · rw [semanticDigest, written]
      rfl
    · rw [← equal]
      have kind : (utf8 "semantic").length < 2 ^ 64 := by decide
      constructor
      · intro same
        obtain ⟨-, medias, versions, payloads⟩ :=
          framed_inj kind kind media media' version version' payload payload' same
        exact ⟨medias, versions, utf8_inj payloads⟩
      · rintro ⟨rfl, rfl, rfl⟩
        rfl

end CanonicalForm

section Sample

@[reducible] def fractionCodecs : Codecs where
  sha256 bytes := bytes.take 32
  parseJson _ := none
  doubleText text := if text = "1.0" then some "1" else none

attribute [local instance] fractionCodecs

def sampleObject : Json := .object [("b", .number "1.0"), ("a", .array [.number "-0", .null])]

def sampleReordered : Json := .object [("a", .array [.number "0", .null]), ("b", .number "1")]

theorem sample_integers : Denotes "1.0" 1 ∧ Denotes "1" 1 ∧ Denotes "-0" 0 ∧ Denotes "0" 0 := by
  have point : '.' ∈ "1.0".toList := by decide
  refine ⟨.double point (by decide) (by decide), ?_, ?_, ?_⟩
  · exact .natural 1
  · exact .negative 0
  · exact .natural 0

theorem canonicalJson_canonicalForm_sample :
    ∃ text text', canonicalJson sampleObject = .ok text ∧ canonicalJson sampleReordered = .ok text' ∧
      utf8 text = utf8 text' ∧
      ∃ node, Parser.parse text resourceLimits = .ok node ∧ Equal node.toJson sampleObject := by
  obtain ⟨fraction, one, negative, zero⟩ := sample_integers
  have integral : Integral sampleObject :=
    ⟨by decide, ⟨1, by decide, fraction⟩, ⟨⟨0, by decide, negative⟩, trivial, trivial⟩, trivial⟩
  have integral' : Integral sampleReordered :=
    ⟨by decide, ⟨⟨0, by decide, zero⟩, trivial, trivial⟩, ⟨1, by decide, one⟩, trivial⟩
  have equal : Equal sampleObject sampleReordered :=
    ⟨rfl, ⟨_, rfl, 1, fraction, one⟩, ⟨_, rfl, ⟨0, negative, zero⟩, trivial, trivial⟩, trivial⟩
  obtain ⟨text, text', written, written', same, read, -⟩ :=
    canonicalJson_canonicalForm integral integral'
  exact ⟨text, text', written, written', same.mpr equal, read (by decide)⟩

end Sample

end GreenGateway.Config
