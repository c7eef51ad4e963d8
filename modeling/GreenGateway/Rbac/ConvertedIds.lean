import GreenGateway.Rbac.PolicyConversion

/-! A converted policy has unique ids, and rules keep theirs where they can. -/

namespace GreenGateway.Rbac

open Foundation List

section Candidates

theorem idCandidate_injective (base : String) : Function.Injective (idCandidate base) := by
  have longer (attempt : Nat) : idCandidate base 0 ≠ idCandidate base (attempt + 1) := by
    intro same
    have lengths := congrArg String.length same
    have dash : "-".length = 1 := rfl
    simp only [idCandidate, String.length_append, dash] at lengths
    omega
  intro left right same
  cases left with
  | zero =>
    cases right with
    | zero => rfl
    | succ right => exact absurd same (longer right)
  | succ left =>
    cases right with
    | zero => exact absurd same.symm (longer left)
    | succ right =>
      have suffixes := String.append_right_inj _ |>.mp (String.append_right_inj _ |>.mp same)
      have := toString_nat_inj suffixes
      omega

/-- Text that may stand after the first character of an id, of so many characters at most. -/
def Spelled (bound : Nat) (text : String) : Prop :=
  text.toList.length ≤ bound ∧ ∀ char ∈ text.toList, isAsciiAlphanumeric char ∨ char = '-'

instance (bound : Nat) (text : String) : Decidable (Spelled bound text) :=
  inferInstanceAs (Decidable (_ ∧ _))

theorem Spelled.append {left right : String} {first second : Nat} (before : Spelled first left)
    (after : Spelled second right) : Spelled (first + second) (left ++ right) := by
  constructor
  · rw [String.toList_append, length_append]
    exact Nat.add_le_add before.1 after.1
  · intro char listed
    rw [String.toList_append, mem_append] at listed
    exact listed.elim (before.2 char) (after.2 char)

theorem isAsciiAlphanumeric_small {char : Char} (spelled : isAsciiAlphanumeric char = true) :
    char.toNat < 128 :=
  Ascii.toNat_lt_of_isAlphanum spelled

variable {text : String} {source : Policy} {slot : Slot}

theorem Spelled.len_le {bound : Nat} (spelled : Spelled bound text) : Text.len text ≤ bound := by
  rw [len_of_ascii]
  · exact spelled.1
  · intro char listed
    rcases spelled.2 char listed with plain | rfl
    · exact utf8Size_of_ascii (isAsciiAlphanumeric_small plain)
    · rfl

theorem spelled_toString {value : Nat} (small : value < 10 ^ 20) : Spelled 20 (toString value) := by
  have ascii : ∀ char ∈ (toString value).toList, isAsciiAlphanumeric char = true := by
    intro char listed
    simp [isAsciiAlphanumeric, toString_digits listed]
  refine ⟨?_, fun char listed => .inl (ascii char listed)⟩
  have short : Text.len (toString value) ≤ 20 := toString_len_le (by omega) small
  rwa [len_of_ascii fun char listed =>
    utf8Size_of_ascii (isAsciiAlphanumeric_small (ascii char listed))] at short

/-- Such text is an id when it starts with a letter. -/
theorem Spelled.isValidElementId {first : Char} {rest : List Char}
    (spelled : Spelled 64 text) (start : text.toList = first :: rest)
    (plain : isAsciiAlphanumeric first = true) : isValidElementId text = true := by
  have filled : text.isEmpty = false := by
    rw [← Bool.not_eq_true, String.isEmpty_iff]
    rintro rfl
    cases start
  have tail : ∀ char ∈ rest, isAsciiAlphanumeric char ∨ char = '-' := by
    intro char listed
    apply spelled.2
    rw [start]
    exact mem_cons_of_mem first listed
  simp only [Rbac.isValidElementId, isValidStableRouteId, filled, start, take_succ_cons,
    take_zero, drop_succ_cons, drop_zero]
  simp only [stableRouteIdMaxLen, spelled.len_le, all_cons, all_nil, Bool.not_false,
    decide_true, Bool.and_true, Bool.true_and, plain, all_eq_true, Bool.or_eq_true, beq_iff_eq]
  intro char listed
  rcases tail char listed with plain | dash
  · exact .inl (.inl (.inl plain))
  · exact .inr dash

theorem Slot.base_spelled (held : slot ∈ source.slots) (small : source.slots.length < 2 ^ 64) :
    Spelled 31 slot.base ∧ ∃ rest, slot.base.toList = 'r' :: rest := by
  have fits {index : Nat} (inside : index < source.slots.length) : index < 10 ^ 20 := by omega
  have count : source.slots.length =
      source.rules.length + source.routes.length + source.rateLimits.length := by
    simp [Policy.slots, Nat.add_assoc]
  have spelled {text : String} {index : Nat} (inside : index < source.slots.length)
      (head : Spelled 11 text) : Spelled 31 (text ++ toString index) :=
    head.append (spelled_toString (fits inside))
  cases slot with
  | rule index =>
    have inside := Policy.mem_slots_rule.mp held
    exact ⟨spelled (by omega) (by simp [Spelled, isAsciiAlphanumeric]),
      "ule-".toList ++ (toString index).toList, by simp [Slot.base]⟩
  | route index =>
    have inside := Policy.mem_slots_route.mp held
    exact ⟨spelled (by omega) (by simp [Spelled, isAsciiAlphanumeric]),
      "oute-".toList ++ (toString index).toList, by simp [Slot.base]⟩
  | rateLimit index =>
    have inside := Policy.mem_slots_rateLimit.mp held
    exact ⟨spelled (by omega) (by simp [Spelled, isAsciiAlphanumeric]),
      "ate-limit-".toList ++ (toString index).toList, by simp [Slot.base]⟩

theorem isValidElementId_candidate {attempt : Nat}
    (held : slot ∈ source.slots) (small : source.slots.length < 2 ^ 64)
    (within : attempt ≤ source.slots.length) :
    isValidElementId (idCandidate slot.base attempt) = true := by
  obtain ⟨spelled, rest, start⟩ := Slot.base_spelled held small
  cases attempt with
  | zero =>
    exact Spelled.isValidElementId ⟨spelled.1.trans (by omega), spelled.2⟩ start (by decide)
  | succ attempt =>
    have dash : Spelled 1 "-" := by simp [Spelled]
    have digits : Spelled 20 (toString (attempt + 2)) := spelled_toString (by omega)
    have whole := spelled.append (dash.append digits)
    have first : (idCandidate slot.base (attempt + 1)).toList =
        'r' :: (rest ++ ("-" ++ toString (attempt + 2)).toList) := by
      rw [idCandidate, String.toList_append, start, cons_append]
    exact Spelled.isValidElementId ⟨whole.1.trans (by omega), whole.2⟩ first (by decide)

/-- The search for an id ends with one that is free and valid, whatever more tries it has. -/
theorem uniqueId_found {taken : List String}
    (held : slot ∈ source.slots) (small : source.slots.length < 2 ^ 64)
    (room : taken.length < source.slots.length) :
    ∃ id, (∀ tries, source.slots.length < tries → uniqueId tries slot.base taken = some id) ∧
      id ∉ taken ∧ isValidElementId id = true := by
  obtain ⟨id, found⟩ : ∃ id, uniqueId source.slots.length slot.base taken = some id :=
    FreshName.exists_search (idCandidate_injective slot.base) room
  obtain ⟨free, offset, within, rfl⟩ := FreshName.search_sound found
  refine ⟨_, fun tries enough => FreshName.search_mono found (by omega), free, ?_⟩
  exact isValidElementId_candidate held small (by omega)

end Candidates

section Generation

variable {source : Policy} {initial : List ConversionChange} {state next : Conversion}
  {done : List Slot} {slot : Slot} {tries : Nat} {code : ChangeCode} {previous : Option String}

/-- Any id that is still free calls for this change. -/
def Lists (source : Policy) (taken : List String) (slot : Slot) (code : ChangeCode)
    (previous : Option String) : Prop :=
  ∀ (policy : Policy) (id : String), id ∉ taken → isValidElementId id = true →
    policy.idAt slot = some id → writtenChange source policy slot =
      some { ConversionChange.withId code slot.pointer id with previousId := previous }

theorem Lists.mono {taken more : List String}
    (lists : Lists source taken slot code previous) (within : taken ⊆ more) :
    Lists source more slot code previous := by
  intro policy id free
  exact lists policy id fun listed => free (within listed)

/-- From one state to a later one the elements listed got their ids and the others kept
theirs. -/
structure Generated (source : Policy) (initial : List ConversionChange) (state : Conversion)
    (done slots : List Slot) (next : Conversion) : Prop where
  claimed : Claimed source initial next (done ++ slots)
  frame : ∀ target ∉ slots, next.policy.idAt target = state.policy.idAt target
  keeps : state.taken ⊆ next.taken

theorem Generated.trans {middle : Conversion} {slots more : List Slot}
    (before : Generated source initial state done slots middle)
    (after : Generated source initial middle (done ++ slots) more next) :
    Generated source initial state done (slots ++ more) next where
  claimed := by
    rw [← append_assoc]
    exact after.claimed
  frame target outside := by
    rw [mem_append, not_or] at outside
    rw [after.frame target outside.2, before.frame target outside.1]
  keeps := List.Subset.trans before.keeps after.keeps

theorem Claimed.generate (claimed : Claimed source initial state done)
    (held : slot ∈ source.slots) (new : slot ∉ done) (small : source.slots.length < 2 ^ 64)
    (lists : Lists source state.taken slot code previous) :
    ∃ next, (∀ tries, source.slots.length < tries →
        state.generate tries code previous slot = some next) ∧
      Generated source initial state done [slot] next := by
  obtain ⟨id, found, free, valid⟩ := uniqueId_found held small (claimed.taken_length held new)
  have inside : slot ∈ state.policy.slots := by rwa [Policy.slots_congr claimed.same]
  have own : (state.policy.setId id slot).idAt slot = some id := Policy.idAt_setId_self inside
  have others : ∀ target ≠ slot,
      (state.policy.setId id slot).idAt target = state.policy.idAt target :=
    fun _ differs => Policy.idAt_setId_other differs
  have step := claimed.claim _ held new free valid own others (Policy.eraseIds_setId _ _ _)
  rw [lists _ id free valid own] at step
  refine ⟨_, fun tries enough => ?_, step, ?_, ?_⟩
  · simp only [Conversion.generate, found tries enough, Option.bind_eq_bind, Option.bind_some]
    rfl
  · intro target outside
    exact others target (ne_of_not_mem_cons outside)
  · exact subset_append_left state.taken [id]

/-- A loop that gives each element of a list its id. -/
theorem Claimed.generateAll {ι : Type*} (step : Nat → Conversion → ι → Option Conversion)
    (slotOf : ι → Slot) (code : ChangeCode) (previous : ι → Option String)
    (small : source.slots.length < 2 ^ 64) (items : List ι)
    (steps : ∀ tries state item, item ∈ items → state.policy.eraseIds = source.eraseIds →
      step tries state item = state.generate tries code (previous item) (slotOf item))
    (claimed : Claimed source initial state done) (once : (items.map slotOf).Nodup)
    (held : ∀ item ∈ items, slotOf item ∈ source.slots) (new : ∀ item ∈ items, slotOf item ∉ done)
    (lists : ∀ item ∈ items, Lists source state.taken (slotOf item) code (previous item)) :
    ∃ next, (∀ tries, source.slots.length < tries →
        items.foldlM (step tries) state = some next) ∧
      Generated source initial state done (items.map slotOf) next := by
  induction items generalizing state done with
  | nil =>
    refine ⟨state, fun _ _ => rfl, ?_, fun _ _ => rfl, List.Subset.refl _⟩
    rwa [map_nil, append_nil]
  | cons item items ih =>
    have here := mem_cons_self (a := item) (l := items)
    obtain ⟨middle, moves, reached⟩ := claimed.generate (held item here) (new item here) small
      (lists item here)
    rw [map_cons, nodup_cons] at once
    -- The rest of the loop starts from a state that has one more element done.
    obtain ⟨next, runs, rest⟩ := ih
      (fun tries state other listed => steps tries state other (mem_cons_of_mem _ listed))
      reached.claimed once.2
      (fun other listed => held other (mem_cons_of_mem _ listed))
      (fun other listed => by
        rw [mem_append, mem_singleton, not_or]
        refine ⟨new other (mem_cons_of_mem _ listed), fun same => once.1 ?_⟩
        rw [← same]
        exact mem_map_of_mem listed)
      (fun other listed => (lists other (mem_cons_of_mem _ listed)).mono reached.keeps)
    refine ⟨next, fun tries enough => ?_, reached.trans rest⟩
    rw [foldlM_cons, steps tries state item here claimed.same, moves tries enough]
    exact runs tries enough

end Generation

section Keeping

namespace Policy

/-- The effective id of the rule at an index. -/
def effectiveAt (policy : Policy) (index : Nat) : String :=
  (policy.idAt (.rule index)).getD (toString index)

theorem effectiveId_eq {policy : Policy} {index : Nat} {rule : Rule}
    (found : policy.rules[index]? = some rule) : effectiveId index rule = policy.effectiveAt index := by
  rw [effectiveId, effectiveAt, idAt, found, Option.bind_some]

end Policy

variable {source : Policy} {initial : List ConversionChange}

/-- The first rules are settled: those done have their effective id, and those left for later
have one that is not valid or that an earlier rule has. -/
structure Kept (source : Policy) (initial : List ConversionChange) (count : Nat)
    (state : Conversion × List (Nat × String)) (done : List Slot) : Prop where
  claimed : Claimed source initial state.1 done
  kept : ∀ slot ∈ done, ∃ index < count, slot = .rule index ∧
    state.1.policy.idAt slot = some (source.effectiveAt index)
  covers : ∀ index < count, .rule index ∈ done ∨ index ∈ state.2.map Prod.fst
  refused : ∀ entry ∈ state.2, entry.1 < count ∧ .rule entry.1 ∉ done ∧
    entry.2 = source.effectiveAt entry.1 ∧ (isValidElementId entry.2 = false ∨
      ∃ earlier < entry.1, .rule earlier ∈ done ∧ source.effectiveAt earlier = entry.2)
  once : (state.2.map Prod.fst).Nodup

namespace Kept

variable {count : Nat} {state : Conversion × List (Nat × String)} {done : List Slot}

section

variable (kept : Kept source initial count state done)

include kept

theorem rule_fresh : .rule count ∉ done := by
  intro listed
  obtain ⟨index, before, same, -⟩ := kept.kept _ listed
  cases same
  exact Nat.lt_irrefl _ before

theorem mem_taken_iff {id : String} :
    id ∈ state.1.taken ↔ ∃ index, .rule index ∈ done ∧ source.effectiveAt index = id := by
  have same : id ∈ state.1.taken ↔ some id ∈ done.map state.1.policy.idAt := by
    rw [← kept.claimed.taken, mem_map_of_injective (Option.some_injective _)]
  rw [same, mem_map]
  constructor
  · rintro ⟨slot, listed, named⟩
    obtain ⟨index, -, rfl, own⟩ := kept.kept slot listed
    rw [own, Option.some_inj] at named
    exact ⟨index, listed, named⟩
  · rintro ⟨index, listed, rfl⟩
    obtain ⟨_, -, same, own⟩ := kept.kept _ listed
    cases same
    exact ⟨_, listed, own⟩

/-- The rule at the next index keeps its effective id. -/
theorem keep {next : Conversion} (claimed : Claimed source initial next (done ++ [.rule count]))
    (own : next.policy.idAt (.rule count) = some (source.effectiveAt count))
    (others : ∀ target ≠ Slot.rule count,
      next.policy.idAt target = state.1.policy.idAt target) :
    Kept source initial (count + 1) (next, state.2) (done ++ [.rule count]) where
  claimed := claimed
  kept slot listed := by
    rcases List.mem_append.mp listed with earlier | here
    · obtain ⟨index, before, rfl, named⟩ := kept.kept slot earlier
      refine ⟨index, by omega, rfl, ?_⟩
      rw [others _ (ne_of_mem_of_not_mem earlier kept.rule_fresh), named]
    · rw [List.mem_singleton.mp here]
      exact ⟨count, by omega, rfl, own⟩
  covers index within := by
    rcases Nat.lt_succ_iff_lt_or_eq.mp within with before | rfl
    · exact (kept.covers index before).imp_left fun listed => mem_append_left _ listed
    · exact .inl (mem_append_right _ (mem_singleton_self _))
  refused entry listed := by
    obtain ⟨before, apart, named, reason⟩ := kept.refused entry listed
    refine ⟨by omega, ?_, named, reason.imp_right ?_⟩
    · rw [mem_append, mem_singleton, Slot.rule.injEq, not_or]
      exact ⟨apart, by omega⟩
    · rintro ⟨earlier, sooner, done, same⟩
      exact ⟨earlier, sooner, mem_append_left _ done, same⟩
  once := kept.once

/-- The rule at the next index is left for later. -/
theorem leave (reason : isValidElementId (source.effectiveAt count) = false ∨
      source.effectiveAt count ∈ state.1.taken) :
    Kept source initial (count + 1) (state.1, state.2 ++ [(count, source.effectiveAt count)])
      done where
  claimed := kept.claimed
  kept slot listed := by
    obtain ⟨index, before, named⟩ := kept.kept slot listed
    exact ⟨index, by omega, named⟩
  covers index within := by
    rw [map_append, mem_append]
    rcases Nat.lt_succ_iff_lt_or_eq.mp within with before | rfl
    · exact (kept.covers index before).imp_right .inl
    · exact .inr (.inr (mem_singleton_self _))
  refused entry listed := by
    rcases List.mem_append.mp listed with earlier | here
    · obtain ⟨before, rest⟩ := kept.refused entry earlier
      exact ⟨by omega, rest⟩
    · rw [List.mem_singleton.mp here]
      refine ⟨by omega, kept.rule_fresh, rfl, reason.imp_right fun held => ?_⟩
      obtain ⟨index, listed, same⟩ := kept.mem_taken_iff.mp held
      obtain ⟨_, before, slot, -⟩ := kept.kept _ listed
      cases slot
      exact ⟨index, before, listed, same⟩
  once := by
    rw [map_append, nodup_append]
    refine ⟨kept.once, nodup_singleton _, ?_⟩
    intro index listed other here same
    obtain ⟨entry, entered, rfl⟩ := List.mem_map.mp listed
    have before := (kept.refused entry entered).1
    rw [map_cons, map_nil, mem_singleton] at here
    omega

theorem claimRule (within : count < source.rules.length) :
    ∃ done, Kept source initial (count + 1) (claimRule state count) done := by
  have held : Slot.rule count ∈ source.slots := Policy.mem_slots_rule.mpr within
  have inside : Slot.rule count ∈ state.1.policy.slots := by
    rwa [Policy.slots_congr kept.claimed.same]
  have idSame := kept.claimed.untouched _ kept.rule_fresh
  obtain ⟨rule, found⟩ : ∃ rule, state.1.policy.rules[count]? = some rule :=
    ⟨_, List.getElem?_eq_getElem (Policy.mem_slots_rule.mp inside)⟩
  have effective : effectiveId count rule = source.effectiveAt count := by
    rw [Policy.effectiveId_eq found, Policy.effectiveAt, Policy.effectiveAt, idSame]
  have idRead : source.idAt (.rule count) = rule.id := by
    rw [← idSame, Policy.idAt, found, Option.bind_some]
  simp only [Rbac.claimRule, found, effective]
  split
  · case _ claims =>
    obtain ⟨valid, free⟩ := claims
    cases named : rule.id with
    | none =>
      have read : source.effectiveAt count = toString count := by
        rw [Policy.effectiveAt, idRead, named, Option.getD_none]
      have own : (state.1.policy.setId (source.effectiveAt count) (.rule count)).idAt
          (.rule count) = some (source.effectiveAt count) := Policy.idAt_setId_self inside
      have others : ∀ target ≠ Slot.rule count,
          (state.1.policy.setId (source.effectiveAt count) (.rule count)).idAt target =
            state.1.policy.idAt target := fun _ differs => Policy.idAt_setId_other differs
      have step := kept.claimed.claim _ held kept.rule_fresh free valid own others
        (Policy.eraseIds_setId _ _ _)
      simp only [writtenChange, own, idRead, named, reduceCtorEq, if_false, Option.map_some,
        true_and, if_pos read] at step
      exact ⟨_, kept.keep step own others⟩
    | some id =>
      have own : state.1.policy.idAt (.rule count) = some (source.effectiveAt count) := by
        rw [idSame, Policy.effectiveAt, idRead, named, Option.getD_some]
      have step := kept.claimed.claim state.1.policy held kept.rule_fresh free valid own
        (fun _ _ => rfl) rfl
      rw [writtenChange, if_pos idSame, Option.toList_none, append_nil] at step
      exact ⟨_, kept.keep step own fun _ _ => rfl⟩
  · case _ refuses =>
    rw [not_and_or, Bool.not_eq_true, not_not] at refuses
    exact ⟨done, kept.leave refuses⟩

end

end Kept

/-- The first loop settles every rule. -/
theorem exists_kept (source : Policy) (initial : List ConversionChange) {count : Nat}
    (within : count ≤ source.rules.length) :
    ∃ done, Kept source initial count
      ((List.range count).foldl claimRule
        ({ policy := source, taken := [], changes := initial }, [])) done := by
  induction count with
  | zero =>
    exact ⟨[], claimed_start source initial, nofun, nofun, nofun, nodup_nil⟩
  | succ count ih =>
    obtain ⟨done, kept⟩ := ih (by omega)
    rw [range_succ, foldl_append, foldl_cons, foldl_nil]
    exact kept.claimRule (by omega)

end Keeping

section Conversions

variable {source result : Policy} {initial : List ConversionChange} {state : Conversion}
  {done : List Slot} {taken : List String} {index count : Nat}
  {settled : Conversion × List (Nat × String)}

theorem ids_eq_none_of_v0 (v0 : validateV0HasNoV1Members source = .ok ()) :
    (∀ route ∈ source.routes, route.id = none) ∧ ∀ limit ∈ source.rateLimits, limit.id = none := by
  simp only [validateV0HasNoV1Members, bind_eq_ok, unit_exists_ok, checkSome_eq_ok] at v0
  obtain ⟨-, -, routes, limits⟩ := v0
  constructor
  · intro route listed
    cases found : source.routes.findIdx? fun route => route.id.isSome with
    | some index => cases routes index found
    | none => simpa using List.findIdx?_eq_none_iff.mp found route listed
  · intro limit listed
    cases found : source.rateLimits.findIdx? fun limit => limit.id.isSome with
    | some index => cases limits index found
    | none => simpa using List.findIdx?_eq_none_iff.mp found limit listed

theorem bind_getElem?_eq_none {α β : Type*} {items : List α} {reads : α → Option β}
    (absent : ∀ item ∈ items, reads item = none)
    (index : Nat) : items[index]?.bind reads = none := by
  cases found : items[index]? with
  | none => rfl
  | some item => exact absent item (mem_of_getElem? found)

theorem lists_bare {slot : Slot} (apart : ∀ index, slot ≠ .rule index)
    (absent : source.idAt slot = none) : Lists source taken slot .elementIdAssigned none := by
  intro policy id _ _ own
  cases slot with
  | rule index => exact absurd rfl (apart index)
  | _ => simp [writtenChange, own, absent, ConversionChange.withId, ConversionChange.new]

/-- An id that could not be kept is no id that is still free. -/
theorem lists_rule (refused : isValidElementId (source.effectiveAt index) = false ∨
    source.effectiveAt index ∈ taken) :
    Lists source taken (.rule index) .ruleIdReplaced (some (source.effectiveAt index)) := by
  intro policy id free valid own
  have differs : id ≠ source.effectiveAt index := by
    rintro rfl
    rcases refused with invalid | held
    · rw [invalid] at valid
      cases valid
    · exact free held
  rw [Policy.effectiveAt] at differs ⊢
  cases before : source.idAt (.rule index) with
  | none =>
    rw [before, Option.getD_none] at differs
    simp only [writtenChange, own, before, reduceCtorEq, if_false, Option.map_some, differs,
      and_false, Option.getD_none]
  | some previous =>
    rw [before, Option.getD_some] at differs
    simp [writtenChange, own, before, differs]

/-- Rules that agree but for their ids become the same with the same ids. -/
theorem restored_rules {converted rules : List Rule}
    (same : converted.map (Rule.withId none) = rules.map (Rule.withId none)) :
    (converted.mapIdx fun index rule =>
      match rules[index]? with
      | none => rule
      | some original => rule.withId original.id) = rules := by
  apply ext_getElem?
  intro index
  have pair := congrArg (fun items => items[index]?) same
  simp only [List.getElem?_map] at pair
  rw [List.getElem?_mapIdx]
  cases found : rules[index]? with
  | none =>
    rw [found, Option.map_none, Option.map_eq_none_iff] at pair
    rw [pair, Option.map_none]
  | some original =>
    rw [found, Option.map_some, Option.map_eq_some_iff] at pair
    obtain ⟨rule, read, alike⟩ := pair
    rw [read, Option.map_some]
    have back := congrArg (fun rule => some (Rule.withId original.id rule)) alike
    exact back

/-- Taking the ids out again gives the source back, whatever version it had. -/
theorem withoutConversionIds_of_same (same : result.eraseIds = source.eraseIds)
    (routes : ∀ route ∈ source.routes, route.id = none)
    (limits : ∀ limit ∈ source.rateLimits, limit.id = none) (schemaVersion : String) :
    withoutConversionIds result { source with schemaVersion } = { source with schemaVersion } := by
  have rules : result.eraseIds.rules = source.eraseIds.rules := congrArg Policy.rules same
  have routes : source.routes.map (RouteRule.withId none) = source.routes := by
    rw [map_congr_left (g := id), map_id]
    intro route listed
    rw [RouteRule.withId, ← routes route listed, id]
  have limits : source.rateLimits.map (RateLimitRule.withId none) = source.rateLimits := by
    rw [map_congr_left (g := id), map_id]
    intro limit listed
    rw [RateLimitRule.withId, ← limits limit listed, id]
  calc withoutConversionIds result { source with schemaVersion }
      = { result.eraseIds with
          schemaVersion
          rules := (withoutConversionIds result { source with schemaVersion }).rules } := rfl
    _ = { source.eraseIds with schemaVersion, rules := source.rules } := by
      rw [same]
      exact congrArg (fun rules => { source.eraseIds with schemaVersion, rules })
        (restored_rules rules)
    _ = { source with schemaVersion } := by
      rw [Policy.eraseIds, routes, limits]

/-- The elements that are given a generated id, in their order. -/
def leftover (source : Policy) (replaced : List (Nat × String)) : List Slot :=
  (List.range source.routes.length).map .route ++ replaced.map (fun entry => .rule entry.1) ++
    (List.range source.rateLimits.length).map .rateLimit

theorem Kept.not_mem_leftover
    (kept : Kept source initial count settled done) (listed : .rule index ∈ done) :
    .rule index ∉ leftover source settled.2 := by
  simp only [leftover, mem_append, mem_map, Slot.rule.injEq, reduceCtorEq, and_false,
    exists_false, or_false, false_or]
  rintro ⟨entry, left, rfl⟩
  exact (kept.refused entry left).2.1 listed

/-- A valid effective id that no earlier rule has is kept. -/
theorem Kept.mem_of_unclaimed
    (kept : Kept source initial count settled done) (within : index < count)
    (valid : isValidElementId (source.effectiveAt index) = true)
    (unclaimed : ∀ earlier < index, source.effectiveAt earlier ≠ source.effectiveAt index) :
    .rule index ∈ done := by
  rcases kept.covers index within with listed | left
  · exact listed
  · obtain ⟨entry, entered, rfl⟩ := List.mem_map.mp left
    obtain ⟨-, -, named, reason⟩ := kept.refused entry entered
    rw [named] at reason
    rcases reason with invalid | ⟨earlier, before, -, same⟩
    · rw [valid] at invalid
      cases invalid
    · exact absurd same (unclaimed earlier before)

/-- The loops after the first give every element that is left a generated id. -/
theorem Kept.assignRest (kept : Kept source initial source.rules.length settled done)
    (routesBare : ∀ route ∈ source.routes, route.id = none)
    (limitsBare : ∀ limit ∈ source.rateLimits, limit.id = none)
    (addressable : source.slots.length < 2 ^ 64) :
    ∃ state, (∀ tries, source.slots.length < tries → (do
        let state ← (List.range source.routes.length).foldlM (assignRoute tries) settled.1
        let state ← settled.2.foldlM (replaceRule tries) state
        (List.range source.rateLimits.length).foldlM (assignRateLimit tries) state) =
          some state) ∧
      Generated source initial settled.1 done (leftover source settled.2) state := by
  have rulesOnly : ∀ slot ∈ done, ∃ index, slot = .rule index := by
    intro slot listed
    obtain ⟨index, -, same, -⟩ := kept.kept slot listed
    exact ⟨index, same⟩
  obtain ⟨second, routesRun, routes⟩ := kept.claimed.generateAll assignRoute .route
    .elementIdAssigned (fun _ => none) addressable (List.range source.routes.length)
    (fun _ _ _ _ _ => rfl) (List.nodup_range.map fun _ _ same => Slot.route.inj same)
    (fun index listed => Policy.mem_slots_route.mpr (List.mem_range.mp listed))
    (fun index _ listed => by
      obtain ⟨_, same⟩ := rulesOnly _ listed
      cases same)
    (fun index _ => lists_bare nofun (bind_getElem?_eq_none routesBare index))
  obtain ⟨third, rulesRun, rules⟩ := routes.claimed.generateAll replaceRule
    (fun entry => .rule entry.1) .ruleIdReplaced (fun entry => some entry.2) addressable settled.2
    (fun tries state entry listed same => by
      have inside := Policy.mem_slots_rule.mpr (kept.refused entry listed).1
      rw [← Policy.slots_congr same] at inside
      rw [replaceRule, if_pos (Policy.mem_slots_rule.mp inside)])
    (by
      have once := kept.once.map (f := Slot.rule) fun _ _ same => Slot.rule.inj same
      rwa [map_map] at once)
    (fun entry listed => Policy.mem_slots_rule.mpr (kept.refused entry listed).1)
    (fun entry listed => by
      have apart := (kept.refused entry listed).2.1
      simp [apart])
    (fun entry listed => by
      obtain ⟨-, -, named, reason⟩ := kept.refused entry listed
      rw [named] at reason ⊢
      refine (lists_rule (reason.imp_right ?_)).mono routes.keeps
      rintro ⟨earlier, -, settled, same⟩
      exact kept.mem_taken_iff.mpr ⟨earlier, settled, same⟩)
  obtain ⟨last, limitsRun, limits⟩ := rules.claimed.generateAll assignRateLimit .rateLimit
    .elementIdAssigned (fun _ => none) addressable (List.range source.rateLimits.length)
    (fun _ _ _ _ _ => rfl) (List.nodup_range.map fun _ _ same => Slot.rateLimit.inj same)
    (fun index listed => Policy.mem_slots_rateLimit.mpr (List.mem_range.mp listed))
    (fun index _ listed => by
      simp only [mem_append, mem_map, reduceCtorEq, and_false, exists_false,
        or_false] at listed
      obtain ⟨_, same⟩ := rulesOnly _ listed
      cases same)
    (fun index _ => lists_bare nofun (bind_getElem?_eq_none limitsBare index))
  refine ⟨last, fun tries enough => ?_, (routes.trans rules).trans ?_⟩
  · rw [routesRun tries enough, Option.bind_eq_bind, Option.bind_some, rulesRun tries enough]
    exact limitsRun tries enough
  · rwa [append_assoc] at limits

/-- Every element has been given its id once. -/
theorem Kept.order (kept : Kept source initial source.rules.length settled done)
    (generated : Generated source initial settled.1 done (leftover source settled.2) state) :
    (done ++ leftover source settled.2).Perm source.slots := by
  rw [perm_ext_iff_of_nodup generated.claimed.once source.slots_nodup]
  intro slot
  refine ⟨generated.claimed.within slot, fun held => ?_⟩
  simp only [leftover, mem_append, mem_map]
  cases slot with
  | rule index =>
    rcases kept.covers index (Policy.mem_slots_rule.mp held) with settled | left
    · exact .inl settled
    · obtain ⟨entry, listed, rfl⟩ := List.mem_map.mp left
      exact .inr (.inl (.inr ⟨entry, listed, rfl⟩))
  | route index =>
    have inside := List.mem_range.mpr (Policy.mem_slots_route.mp held)
    exact .inr (.inl (.inl ⟨index, inside, rfl⟩))
  | rateLimit index =>
    have inside := List.mem_range.mpr (Policy.mem_slots_rateLimit.mp held)
    exact .inr (.inr ⟨index, inside, rfl⟩)

/-- What a conversion makes of a policy and of the changes listed before it. -/
structure Converts (source : Policy) (initial : List ConversionChange) (result : Policy)
    (changes : List ConversionChange) : Prop where
  /-- Every element has a valid id. -/
  identified : ∀ slot ∈ source.slots, ∃ id, result.idAt slot = some id ∧
    isValidElementId id = true
  /-- No two elements have the same id. -/
  distinct : ∀ left ∈ source.slots, ∀ right ∈ source.slots,
    result.idAt left = result.idAt right → left = right
  /-- A rule keeps a valid effective id that no earlier rule claims. -/
  stable : ∀ index rule, source.rules[index]? = some rule →
    isValidElementId (effectiveId index rule) = true →
    (∀ earlier < index, ∀ other, source.rules[earlier]? = some other →
      effectiveId earlier other ≠ effectiveId index rule) →
    result.idAt (.rule index) = some (effectiveId index rule)
  /-- Everything but the ids is as before. -/
  same : result.eraseIds = source.eraseIds
  /-- The changes listed are the ids that were written, each once. -/
  recorded : ∃ order : List Slot, order.Perm source.slots ∧
    changes = initial ++ order.filterMap (writtenChange source result)
  /-- The source can be read off. -/
  restored : ∀ schemaVersion, withoutConversionIds result { source with schemaVersion } =
    { source with schemaVersion }

/-- A 0.x policy gets unique, stable ids, and no search for one takes more tries than there are
elements and one. -/
theorem assignIds_converts (source : Policy) (initial : List ConversionChange)
    (v0 : validateV0HasNoV1Members source = .ok ()) (addressable : source.slots.length < 2 ^ 64) :
    ∃ result changes, (∀ tries, source.slots.length + 1 ≤ tries →
        assignIds tries source initial = some (result, changes)) ∧
      Converts source initial result changes := by
  obtain ⟨routesBare, limitsBare⟩ := ids_eq_none_of_v0 v0
  obtain ⟨done, kept⟩ := exists_kept source initial le_rfl
  generalize first : (List.range source.rules.length).foldl claimRule
    ({ policy := source, taken := [], changes := initial }, []) = settled at kept
  obtain ⟨state, runs, generated⟩ := kept.assignRest routesBare limitsBare addressable
  have order := kept.order generated
  refine ⟨state.policy, state.changes, fun tries enough => ?_, ?_, ?_, ?_, generated.claimed.same,
    ⟨_, order, generated.claimed.changes⟩,
    withoutConversionIds_of_same generated.claimed.same routesBare limitsBare⟩
  · obtain ⟨second, routesRun, run⟩ := Option.bind_eq_some_iff.mp (runs tries enough)
    obtain ⟨third, rulesRun, limitsRun⟩ := Option.bind_eq_some_iff.mp run
    simp [assignIds, first, routesRun, rulesRun, limitsRun]
  · intro slot held
    have own := mem_map_of_mem (f := state.policy.idAt) (order.mem_iff.mpr held)
    rw [← generated.claimed.taken, mem_map] at own
    obtain ⟨id, listed, same⟩ := own
    exact ⟨id, same.symm, generated.claimed.valid id listed⟩
  · intro left here right there same
    have once := generated.claimed.distinct.map (Option.some_injective String)
    rw [generated.claimed.taken] at once
    exact inj_on_of_nodup_map once (order.mem_iff.mpr here) (order.mem_iff.mpr there) same
  · intro index rule found valid unclaimed
    rw [Policy.effectiveId_eq found] at valid unclaimed ⊢
    have listed := kept.mem_of_unclaimed (List.getElem?_eq_some_iff.mp found).1 valid
      fun earlier before same => by
        have inside : earlier < source.rules.length := by
          have := (List.getElem?_eq_some_iff.mp found).1
          omega
        have read := List.getElem?_eq_getElem inside
        exact unclaimed earlier before _ read (by rw [Policy.effectiveId_eq read, same])
    rw [generated.frame _ (kept.not_mem_leftover listed)]
    obtain ⟨_, -, same, own⟩ := kept.kept _ listed
    cases same
    exact own

/-- Rules whose ids are absent, repeated, ill-formed or look like generated ones. -/
def sampleUnconverted : Policy where
  schemaVersion := "0.1"
  rules :=
    [{ id := some "rule-3", action := .allow }, { id := some "3", action := .allow },
      { action := .allow }, { action := .allow }, { id := some "3", action := .allow },
      { id := some "not an id", action := .deny }, { id := some "route-0", action := .allow }]
  routes := [{ pathPrefix := "/", permission := "read" }]
  rateLimits := [{ requestsPerSecond := 1, burst := 1 }]

theorem assignIds_converts_sample :
    validateV0HasNoV1Members sampleUnconverted = .ok () ∧ ∃ result changes,
      (∀ tries, sampleUnconverted.slots.length + 1 ≤ tries →
        assignIds tries sampleUnconverted [] = some (result, changes)) ∧
      Converts sampleUnconverted [] result changes :=
  ⟨rfl, assignIds_converts sampleUnconverted [] rfl (by decide)⟩

end Conversions

end GreenGateway.Rbac
