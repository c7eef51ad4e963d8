import GreenGateway.Archive.Portable

/-! The claims the guard keeps say exactly which paths the entries so far use, and a path
can be claimed exactly when it is compatible with them. -/

namespace GreenGateway.Archive

open Foundation Config List

variable {limits : ArchiveLimits} {path : String}

section Parents

theorem mem_parentsFrom (parent : String) (front back : List (List Char)) (some_ : front ≠ [])
    (positive : 0 < (['/'].intercalate front).length) :
    parent ∈ parentsFrom (['/'].intercalate (front ++ back)) (['/'].intercalate front).length back ↔
      ∃ middle rest, back = middle ++ rest ∧ rest ≠ [] ∧
        parent = String.ofList (['/'].intercalate (front ++ middle)) := by
  induction back generalizing front with
  | nil =>
    simp only [parentsFrom, not_mem_nil, false_iff]
    rintro ⟨middle, rest, split, more, -⟩
    exact more (List.append_eq_nil_iff.mp split.symm).2
  | cons segment back ih =>
    have start : (['/'].intercalate (front ++ segment :: back)).take (['/'].intercalate front).length =
        ['/'].intercalate front := by
      rw [Text.intercalate_append some_ (by simp), take_left]
    have longer : (['/'].intercalate front).length + 1 + segment.length =
        (['/'].intercalate (front ++ [segment])).length := by
      rw [Text.intercalate_append some_ (by simp), intercalate_singleton, length_append,
        length_cons]
      omega
    have further := ih (front ++ [segment]) (by simp) (by omega)
    rw [append_assoc, singleton_append] at further
    rw [parentsFrom, if_pos positive, mem_cons, start, longer, further]
    constructor
    · rintro (rfl | ⟨middle, rest, rfl, more, rfl⟩)
      · exact ⟨[], segment :: back, rfl, by simp, by simp⟩
      · exact ⟨segment :: middle, rest, rfl, more, by simp⟩
    · rintro ⟨middle, rest, split, more, rfl⟩
      cases middle with
      | nil => exact .inl (by simp)
      | cons first middle =>
        obtain ⟨rfl, rfl⟩ := List.cons.inj split
        exact .inr ⟨middle, rest, rfl, more, by simp⟩

theorem mem_parents (portable : PortablePath limits path) {parent : String} :
    parent ∈ (EntryPath.mk path).parents ↔ Above parent path := by
  have pieces : (EntryPath.mk path).segments.map String.toList = path.toList.splitOn '/' := by
    simp [EntryPath.segments, Text.split]
  have joined : ['/'].intercalate (path.toList.splitOn '/') = path.toList := intercalate_splitOn '/'
  obtain ⟨segment, more, split⟩ := exists_cons_of_ne_nil (splitOn_ne_nil '/' path.toList)
  have positive : 0 < (['/'].intercalate [segment]).length := by
    rw [intercalate_singleton]
    apply List.length_pos_iff.mpr
    rintro rfl
    exact portable.nonempty_segment (by simp [split])
  have listed := mem_parentsFrom parent [segment] more (by simp) positive
  rw [singleton_append, ← split, joined, intercalate_singleton] at listed
  rw [EntryPath.parents, pieces, split, parentsFrom, if_neg (by simp), listed]
  constructor
  · rintro ⟨middle, rest, rfl, some_, rfl⟩
    refine ⟨String.ofList (['/'].intercalate rest), String.toList_inj.mp ?_⟩
    have whole : path.toList = ['/'].intercalate (([segment] ++ middle) ++ rest) := by
      rw [← joined, split]
      rfl
    rw [whole, Text.intercalate_append (by simp) some_]
    simp
  · rintro ⟨rest, rfl⟩
    simp only [String.toList_append] at split
    change (parent.toList ++ '/' :: rest.toList).splitOn '/' = _ at split
    rw [splitOn_append_cons_self] at split
    obtain ⟨first, middle, opened⟩ := exists_cons_of_ne_nil (splitOn_ne_nil '/' parent.toList)
    rw [opened, cons_append] at split
    obtain ⟨rfl, rfl⟩ := List.cons.inj split
    refine ⟨middle, _, rfl, splitOn_ne_nil _ _, ?_⟩
    rw [singleton_append, ← opened, intercalate_splitOn, String.ofList_toList]

variable {directory left right : String}

theorem Above.shorter (above : Above directory path) :
    directory.toList.length < path.toList.length := by
  obtain ⟨rest, rfl⟩ := above
  simp only [String.toList_append, length_append]
  have : "/".toList.length = 1 := rfl
  omega

theorem lowercase_length (same : Text.toAsciiLowercase left = Text.toAsciiLowercase right) :
    left.toList.length = right.toList.length := by
  have lengths := congrArg (fun text => text.toList.length) same
  simpa [Text.toAsciiLowercase] using lengths

/-- No two directories above one path share their case fold. -/
theorem Above.folded (above : Above left path) (other : Above right path)
    (same : Text.toAsciiLowercase left = Text.toAsciiLowercase right) : left = right := by
  obtain ⟨rest, whole⟩ := above
  obtain ⟨rest', whole'⟩ := other
  have characters := congrArg String.toList (whole.symm.trans whole')
  simp only [String.toList_append] at characters
  exact String.toList_inj.mp (append_inj_left characters (lowercase_length same))

theorem Above.not_folded (above : Above directory path) :
    Text.toAsciiLowercase directory ≠ Text.toAsciiLowercase path :=
  fun same => absurd (lowercase_length same) (by have := above.shorter; omega)

end Parents

section Claiming

variable {claims after : Claims} {kind : ClaimKind} {position : UInt64}

/-- The parents are new, or used as directories under the same spelling. -/
theorem claimParents_eq_ok {parents : List String} {start result : List (String × String)} :
    parents.foldlM (claimParent claims position) start = .ok result ↔
      (∀ parent ∈ parents, ∀ earlier, claims.lookup (Text.toAsciiLowercase parent) = some earlier →
        earlier.exact = parent ∧ earlier.kind ≠ .file) ∧
      result = start ++ (parents.filter fun parent =>
        (claims.lookup (Text.toAsciiLowercase parent)).isNone).map fun parent =>
          (Text.toAsciiLowercase parent, parent) := by
  induction parents generalizing start with
  | nil =>
    rw [foldlM_nil]
    simp [pure, Except.pure, eq_comm]
  | cons parent parents ih =>
    rw [foldlM_cons, bind_eq_ok]
    simp only [ih, claimParent]
    cases found : claims.lookup (Text.toAsciiLowercase parent) with
    | none => simp [found]
    | some earlier =>
      simp only [bind_eq_ok, unit_exists_ok, refuse_eq_ok, Except.ok.injEq, bne_eq_false_iff_eq,
        beq_eq_false_iff_ne, forall_mem_cons, found, Option.some.injEq, forall_eq',
        filter_cons, Option.isNone_some, Bool.false_eq_true, if_false]
      constructor
      · rintro ⟨_, ⟨exact_, directory, rfl⟩, others, rfl⟩
        exact ⟨⟨⟨exact_, directory⟩, others⟩, rfl⟩
      · rintro ⟨⟨⟨exact_, directory⟩, others⟩, rfl⟩
        exact ⟨start, ⟨exact_, directory, rfl⟩, others, rfl⟩

theorem claimOwn_eq_ok (listed : kind ≠ .parent) :
    claimOwn claims path kind position = .ok after ↔
      (∀ earlier, claims.lookup (Text.toAsciiLowercase path) = some earlier →
        earlier.exact = path ∧ earlier.kind = .parent ∧ kind = .directory) ∧
      after = (Text.toAsciiLowercase path, { exact := path, kind, position }) :: claims := by
  unfold claimOwn
  dsimp only
  split
  · next fresh =>
    rw [fresh, Except.ok.injEq]
    exact ⟨fun same => ⟨nofun, same.symm⟩, fun both => both.2.symm⟩
  · next earlier found =>
    rcases earlier with ⟨spelling, used, earlierPosition⟩
    simp only [found, bind_eq_ok, unit_exists_ok, refuse_eq_ok, bne_eq_false_iff_eq,
      Option.some.injEq, forall_eq', Bool.and_eq_true, beq_iff_eq]
    split
    · next upgrade =>
      obtain ⟨rfl, rfl⟩ := upgrade
      simp only [Except.ok.injEq]
      constructor
      · rintro ⟨rfl, rfl⟩
        exact ⟨⟨rfl, by simp⟩, rfl⟩
      · rintro ⟨⟨rfl, -⟩, rfl⟩
        exact ⟨rfl, rfl⟩
    · next other =>
      constructor
      · rintro ⟨-, refused⟩
        simp at refused
      · rintro ⟨⟨-, parent, directory⟩, -⟩
        exact absurd ⟨parent, directory⟩ other

theorem lookup_claimed (claims : Claims) (parents : List (String × String)) (key : String) :
    (∃ entry ∈ parents, entry.1 = key ∧
      (parents.foldl (fun claims entry => (entry.1,
        ({ exact := entry.2, kind := .parent, position } : Claim)) :: claims) claims).lookup key =
          some { exact := entry.2, kind := .parent, position }) ∨
    key ∉ parents.map Prod.fst ∧
      (parents.foldl (fun claims entry => (entry.1,
        ({ exact := entry.2, kind := .parent, position } : Claim)) :: claims) claims).lookup key =
          claims.lookup key := by
  induction parents generalizing claims with
  | nil => exact .inr ⟨by simp, rfl⟩
  | cons parent parents ih =>
    rw [foldl_cons]
    rcases ih
      ((parent.1, { exact := parent.2, kind := .parent, position }) :: claims) with
      ⟨entry, member, same, found⟩ | ⟨absent, found⟩
    · exact .inl ⟨entry, mem_cons_of_mem _ member, same, found⟩
    · by_cases own : parent.1 = key
      · exact .inl ⟨parent, mem_cons_self, own, by rw [found]; simp [own]⟩
      · refine .inr ⟨by simpa [Ne.symm own] using absent, ?_⟩
        rw [found, lookup_cons, beq_eq_false_iff_ne.mpr (Ne.symm own)]

/-- What the claims must say for a path to be claimed. -/
structure Claimable (claims : Claims) (path : String) (kind : ClaimKind) : Prop where
  parents : ∀ parent, Above parent path → ∀ earlier,
    claims.lookup (Text.toAsciiLowercase parent) = some earlier →
      earlier.exact = parent ∧ earlier.kind ≠ .file
  own : ∀ earlier, claims.lookup (Text.toAsciiLowercase path) = some earlier →
    earlier.exact = path ∧ earlier.kind = .parent ∧ kind = .directory

theorem claim_eq_ok (portable : PortablePath limits path) (listed : kind ≠ .parent) :
    (∃ after, claim claims ⟨path⟩ kind position = .ok after) ↔ Claimable claims path kind := by
  simp only [claim, bind_eq_ok, claimParents_eq_ok, claimOwn_eq_ok listed, mem_parents portable]
  constructor
  · rintro ⟨_, _, ⟨parents, -⟩, _, ⟨own, -⟩, -⟩
    exact ⟨parents, own⟩
  · rintro ⟨parents, own⟩
    exact ⟨_, _, ⟨parents, rfl⟩, _, ⟨own, rfl⟩, rfl⟩

/-- What the claims say once a path is claimed. -/
theorem claim_lookup (portable : PortablePath limits path) (listed : kind ≠ .parent)
    (claimed : claim claims ⟨path⟩ kind position = .ok after) (key : String) :
    (∃ parent, Above parent path ∧ key = Text.toAsciiLowercase parent ∧ claims.lookup key = none ∧
      after.lookup key = some { exact := parent, kind := .parent, position }) ∨
    (key = Text.toAsciiLowercase path ∧ after.lookup key = some { exact := path, kind, position }) ∨
    key ≠ Text.toAsciiLowercase path ∧
      (∀ parent, Above parent path → key = Text.toAsciiLowercase parent → claims.lookup key ≠ none) ∧
      after.lookup key = claims.lookup key := by
  simp only [claim, bind_eq_ok, claimParents_eq_ok, claimOwn_eq_ok listed, Except.ok.injEq,
    nil_append] at claimed
  obtain ⟨_, ⟨-, rfl⟩, _, ⟨-, rfl⟩, rfl⟩ := claimed
  rcases lookup_claimed _ _ key with ⟨entry, member, rfl, found⟩ | ⟨absent, found⟩
  · obtain ⟨parent, kept, rfl⟩ := List.mem_map.mp member
    obtain ⟨inside, fresh⟩ := List.mem_filter.mp kept
    exact .inl ⟨parent, (mem_parents portable).mp inside, rfl, by simpa using fresh, found⟩
  · by_cases own : key = Text.toAsciiLowercase path
    · refine .inr (.inl ⟨own, ?_⟩)
      rw [found, own, lookup_cons_self]
    · refine .inr (.inr ⟨own, ?_, ?_⟩)
      · rintro parent above rfl fresh
        refine absent (List.mem_map.mpr ⟨_, List.mem_map.mpr ⟨parent, List.mem_filter.mpr ⟨?_, ?_⟩, rfl⟩,
          rfl⟩)
        · exact (mem_parents portable).mpr above
        · rw [fresh]
          rfl
      · rw [found, lookup_cons, beq_eq_false_iff_ne.mpr own]

end Claiming

end GreenGateway.Archive
