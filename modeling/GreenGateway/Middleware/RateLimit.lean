import Mathlib.Data.List.AList
import GreenGateway.Foundation.SecondChance

/-! The rate limiter's bucket store: token buckets under hashed keys, at most `capacity` of
them, recycled by a second-chance scan. -/

namespace GreenGateway.Middleware

open Foundation List Option

/-- The double-precision arithmetic of the token step. -/
class Doubles (F : Type) where
  add : F → F → F
  sub : F → F → F
  mul : F → F → F
  min : F → F → F
  /-- `>=`. -/
  atLeast : F → F → Bool
  zero : F
  one : F
  /-- `Duration::as_secs_f64`. -/
  asSecs : Nat → F

open Doubles
section Store

/-- Refills `tokens` for the elapsed seconds and spends one if a whole one is there. -/
def spendToken {F : Type} [Doubles F] (tokens elapsedSecs rps burst : F) : Bool × F :=
  let tokens := min (Doubles.add tokens (mul elapsedSecs rps)) burst
  if atLeast tokens one then (true, sub tokens one)
  else (false, tokens)

structure TokenBucket (F : Type) where
  tokens : F
  lastRefill : Nat
  referenced : Bool
  deriving DecidableEq, Repr

inductive EvictionReason where
  | ttl
  | capacity
  deriving DecidableEq, Repr

/-- What a check does to the buckets, in the order it does it. -/
inductive BucketEvent where
  | inserted (bucket : UInt64) (instant : Nat)
  | referenced (bucket : UInt64) (instant : Nat)
  | passed (bucket : UInt64)
  | evicted (bucket : UInt64) (reason : EvictionReason)
  deriving DecidableEq, Repr

structure BucketStore (F : Type) where
  map : AList fun _ : UInt64 => TokenBucket F
  /-- The scan order, front first. -/
  hand : List UInt64
  capacity : Nat
  idleTtl : Nat
  hashOf : String → UInt64
  liveBuckets : Nat

variable {F : Type}

namespace BucketStore

def new (capacity idleTtl : Nat) (hashOf : String → UInt64) : BucketStore F :=
  { map := ∅, hand := [], capacity, idleTtl, hashOf, liveBuckets := 0 }

/-- Takes a bucket that was popped off the hand out of the map. -/
def remove (store : BucketStore F) (candidate : UInt64) (hand : List UInt64) : BucketStore F :=
  { store with map := store.map.erase candidate, hand, liveBuckets := store.liveBuckets - 1 }

/-- The loop after the scans: the first key of the hand that has a bucket goes. -/
def evictFront (store : BucketStore F) : List UInt64 → List BucketEvent × BucketStore F
  | [] => ([], { store with hand := [] })
  | candidate :: rest =>
    if candidate ∈ store.map then ([.evicted candidate .capacity], store.remove candidate rest)
    else store.evictFront rest

def evictFrom (now : Nat) : Nat → BucketStore F → List BucketEvent × BucketStore F
  | 0, store => store.evictFront store.hand
  | scans + 1, store =>
    match store.hand with
    | [] => store.evictFront []
    | candidate :: rest =>
      match store.map.lookup candidate with
      | none => evictFrom now scans { store with hand := rest }
      | some bucket =>
        if store.idleTtl ≤ now - bucket.lastRefill then
          ([.evicted candidate .ttl], store.remove candidate rest)
        else if bucket.referenced then
          let (events, store) := evictFrom now scans
            { store with
              map := store.map.insert candidate { bucket with referenced := false }
              hand := rest ++ [candidate] }
          (.passed candidate :: events, store)
        else ([.evicted candidate .capacity], store.remove candidate rest)

def evictOne (store : BucketStore F) (now : Nat) : List BucketEvent × BucketStore F :=
  evictFrom now (store.hand.length * 2) store

end BucketStore

structure RateLimiter (F : Type) where
  rps : F
  burst : F

variable [Doubles F]

/-- Whether the key's request is allowed, what happened to the buckets, and the store. -/
def RateLimiter.checkAt (limiter : RateLimiter F) (store : BucketStore F) (key : String)
    (now : Nat) : Bool × List BucketEvent × BucketStore F :=
  let hashed := store.hashOf key
  match store.map.lookup hashed with
  | some bucket =>
    let elapsed := asSecs (now - bucket.lastRefill)
    let (allowed, tokens) := spendToken bucket.tokens elapsed limiter.rps limiter.burst
    let bucket := { tokens, lastRefill := now, referenced := true }
    (allowed, [.referenced hashed now], { store with map := store.map.insert hashed bucket })
  | none =>
    let (events, store) :=
      if store.capacity ≤ store.map.entries.length then store.evictOne now else ([], store)
    let (allowed, tokens) := spendToken limiter.burst zero limiter.rps limiter.burst
    let bucket := { tokens, lastRefill := now, referenced := false }
    (allowed, events ++ [.inserted hashed now],
      { store with
        map := store.map.insert hashed bucket
        hand := store.hand ++ [hashed]
        liveBuckets := store.liveBuckets + 1 })

end Store

section Scan

variable {F : Type} {store : BucketStore F} {now : Nat} {key : UInt64} {bucket : TokenBucket F}
  {rest : List UInt64}

/-- A bucket idle for the whole TTL, or without a reprieve. -/
def BucketStore.Ripe (store : BucketStore F) (now : Nat) (key : UInt64) : Prop :=
  ∃ bucket, store.map.lookup key = some bucket ∧
    (store.idleTtl ≤ now - bucket.lastRefill ∨ bucket.referenced = false)

def clearReference (map : AList fun _ : UInt64 => TokenBucket F) (key : UInt64) :
    AList fun _ : UInt64 => TokenBucket F :=
  match map.lookup key with
  | some bucket => map.insert key { bucket with referenced := false }
  | none => map

def clearReferences (map : AList fun _ : UInt64 => TokenBucket F) (keys : List UInt64) :
    AList fun _ : UInt64 => TokenBucket F :=
  keys.foldl clearReference map

theorem keys_insert_perm {map : AList fun _ : UInt64 => TokenBucket F} (listed : key ∈ map) :
    (map.insert key bucket).keys.Perm map.keys := by
  rw [AList.keys_insert]
  exact (perm_cons_erase (AList.mem_keys.mp listed)).symm

variable (map : AList fun _ : UInt64 => TokenBucket F)

theorem keys_clearReference (key : UInt64) : (clearReference map key).keys.Perm map.keys := by
  rw [clearReference]
  split
  · rename_i bucket found
    exact keys_insert_perm (AList.lookup_isSome.mp (isSome_of_eq_some found))
  · exact .refl _

theorem keys_clearReferences (keys : List UInt64) :
    (clearReferences map keys).keys.Perm map.keys := by
  induction keys generalizing map with
  | nil => exact .refl _
  | cons key keys ih =>
    exact (ih _).trans (keys_clearReference map key)

theorem lookup_clearReference (key other : UInt64) : (clearReference map key).lookup other =
      if other = key then (map.lookup other).map ({ · with referenced := false })
      else map.lookup other := by
  rw [clearReference]
  by_cases same : other = key
  · subst same
    rw [if_pos rfl]
    cases found : map.lookup other with
    | none => rw [found]; rfl
    | some bucket => rw [AList.lookup_insert]; rfl
  · rw [if_neg same]
    split
    · exact AList.lookup_insert_ne same
    · rfl

theorem lookup_clearReferences (keys : List UInt64) (other : UInt64) :
    (clearReferences map keys).lookup other =
      if other ∈ keys then (map.lookup other).map ({ · with referenced := false })
      else map.lookup other := by
  induction keys generalizing map with
  | nil => simp [clearReferences]
  | cons key keys ih =>
    rw [clearReferences, foldl_cons, ← clearReferences, ih, lookup_clearReference]
    by_cases same : other = key
    · subst same
      simp only [if_true, mem_cons, true_or, Option.map_map]
      split <;> rfl
    · simp [same]

variable (scans : Nat)

/-- One scan, at the front of the hand. -/
theorem evictFrom_cons
    (whole : store.hand = key :: rest) (found : store.map.lookup key = some bucket) :
    BucketStore.evictFrom now (scans + 1) store =
      if store.idleTtl ≤ now - bucket.lastRefill then
        ([.evicted key .ttl], store.remove key rest)
      else if bucket.referenced then
        let result := BucketStore.evictFrom now scans
          { store with map := clearReference store.map key, hand := rest ++ [key] }
        (.passed key :: result.1, result.2)
      else ([.evicted key .capacity], store.remove key rest) := by
  rw [BucketStore.evictFrom, whole, clearReference]
  dsimp only
  rw [found]

/-- A scan passes over hot buckets, clearing them, to the back of the hand. -/
theorem evictFrom_pass {front : List UInt64} (whole : store.hand = front ++ rest)
    (distinct : front.Nodup) (hot : ∀ key ∈ front, ∃ bucket, store.map.lookup key = some bucket ∧
      ¬ store.idleTtl ≤ now - bucket.lastRefill ∧ bucket.referenced = true) :
    BucketStore.evictFrom now (scans + front.length) store =
      let result := BucketStore.evictFrom now scans
        { store with map := clearReferences store.map front, hand := rest ++ front }
      (front.map .passed ++ result.1, result.2) := by
  induction front generalizing store rest with
  | nil =>
    obtain ⟨map, hand, capacity, idleTtl, hashOf, liveBuckets⟩ := store
    dsimp only at whole
    subst whole
    simp [clearReferences]
  | cons key front ih =>
    obtain ⟨⟨bucket, found, fresh, referenced⟩, others⟩ := List.forall_mem_cons.mp hot
    obtain ⟨apart, distinct⟩ := List.nodup_cons.mp distinct
    rw [cons_append] at whole
    rw [length_cons, ← Nat.add_assoc, evictFrom_cons _ whole found, if_neg fresh, if_pos referenced]
    have turned : ({ store with
        map := clearReference store.map key
        hand := front ++ rest ++ [key] } : BucketStore F).hand = front ++ (rest ++ [key]) :=
      append_assoc ..
    have rotated := ih turned distinct (fun other listed => ?_)
    · rw [rotated]
      simp only [map_cons, cons_append, append_assoc]
      rfl
    · obtain ⟨own, ownFound, ownFresh, ownReferenced⟩ := others other listed
      refine ⟨own, ?_, ownFresh, ownReferenced⟩
      have different : other ≠ key := fun same => apart (same ▸ listed)
      dsimp only
      rw [lookup_clearReference, if_neg different, ownFound]

theorem evictFrom_stop (whole : store.hand = key :: rest) (stops : store.Ripe now key) :
    ∃ reason, BucketStore.evictFrom now (scans + 1) store =
      ([.evicted key reason], store.remove key rest) := by
  obtain ⟨bucket, found, ripe⟩ := stops
  rw [evictFrom_cons scans whole found]
  by_cases idle : store.idleTtl ≤ now - bucket.lastRefill
  · exact ⟨.ttl, by rw [if_pos idle]⟩
  · have unreferenced := ripe.resolve_left idle
    exact ⟨.capacity, by rw [if_neg idle, unreferenced, if_neg (by decide)]⟩

/-- The hand and the map hold the same keys. -/
def BucketStore.Matched (store : BucketStore F) : Prop := store.hand.Perm store.map.keys

namespace BucketStore.Matched

variable (matched : store.Matched) {key : UInt64}

include matched

theorem nodup : store.hand.Nodup := matched.nodup_iff.mpr store.map.keys_nodup

theorem mem_iff (key : UInt64) : key ∈ store.hand ↔ key ∈ store.map :=
  (List.Perm.mem_iff matched).trans AList.mem_keys.symm

theorem lookup_of_mem (listed : key ∈ store.hand) : ∃ bucket, store.map.lookup key = some bucket :=
  Option.isSome_iff_exists.mp (AList.lookup_isSome.mpr ((matched.mem_iff key).mp listed))

theorem hot_of_unripe (listed : key ∈ store.hand) (unripe : ¬ store.Ripe now key) :
    ∃ bucket, store.map.lookup key = some bucket ∧
      ¬ store.idleTtl ≤ now - bucket.lastRefill ∧ bucket.referenced = true := by
  obtain ⟨bucket, found⟩ := matched.lookup_of_mem listed
  refine ⟨bucket, found, fun idle => unripe ⟨bucket, found, .inl idle⟩, ?_⟩
  by_contra unreferenced
  exact unripe ⟨bucket, found, .inr (Bool.not_eq_true _ ▸ unreferenced)⟩

end BucketStore.Matched

/-- What one eviction leaves. -/
def BucketStore.evicted (store : BucketStore F) (passed : List UInt64) (victim : UInt64)
    (remaining : List UInt64) : BucketStore F :=
  { store with
    map := (clearReferences store.map passed).erase victim
    hand := remaining
    liveBuckets := store.liveBuckets - 1 }

/-- The loop evicts the bucket a second-chance clock chooses, and the scans it is given are
enough. -/
theorem evictOne_eq {passed remaining : List UInt64} {victim : UInt64} (matched : store.Matched)
    (chosen : SecondChance.Chosen (store.Ripe now) store.hand passed victim remaining) :
    ∃ reason, store.evictOne now =
      (passed.map .passed ++ [.evicted victim reason], store.evicted passed victim remaining) := by
  have distinct := matched.nodup
  have hot : (∀ key ∈ passed, ¬ store.Ripe now key) → ∀ key ∈ passed, ∃ bucket,
      store.map.lookup key = some bucket ∧ ¬ store.idleTtl ≤ now - bucket.lastRefill ∧
        bucket.referenced = true := fun unripe key listed =>
    matched.hot_of_unripe (chosen.passed_subset listed) (unripe key listed)
  rw [BucketStore.evictOne]
  generalize whole : store.hand = hand at chosen distinct
  cases chosen with
  | @first _ back _ unripe stops =>
    obtain ⟨distinctPassed, -, apart⟩ := List.nodup_append.mp distinct
    have enough : (passed ++ victim :: back).length * 2 =
        passed.length + 2 * back.length + 1 + 1 + passed.length := by
      rw [length_append, length_cons]
      omega
    have ripe : ({ store with
        map := clearReferences store.map passed
        hand := victim :: back ++ passed } : BucketStore F).Ripe now victim := by
      obtain ⟨bucket, found, held⟩ := stops
      refine ⟨bucket, ?_, held⟩
      have outside : victim ∉ passed := fun inside => apart _ inside _ mem_cons_self rfl
      dsimp only
      rw [lookup_clearReferences, if_neg outside, found]
    obtain ⟨reason, stopped⟩ := evictFrom_stop (passed.length + 2 * back.length + 1)
      (cons_append ..) ripe
    refine ⟨reason, ?_⟩
    rw [enough, evictFrom_pass _ whole distinctPassed (hot unripe)]
    dsimp only
    rw [stopped]
    rfl
  | none_ripe unripe =>
    have enough : (victim :: remaining).length * 2 = remaining.length + 1 + (victim :: remaining).length := by
      rw [length_cons]
      omega
    have ripe : ({ store with
        map := clearReferences store.map (victim :: remaining)
        hand := [] ++ victim :: remaining } : BucketStore F).Ripe now victim := by
      obtain ⟨bucket, found, -⟩ := hot unripe victim mem_cons_self
      refine ⟨{ bucket with referenced := false }, ?_, .inr rfl⟩
      dsimp only
      rw [lookup_clearReferences, if_pos mem_cons_self, found]
      rfl
    obtain ⟨reason, stopped⟩ := evictFrom_stop remaining.length (nil_append _) ripe
    refine ⟨reason, ?_⟩
    rw [enough, evictFrom_pass _ (whole.trans (append_nil _).symm) distinct (hot unripe)]
    dsimp only
    rw [stopped]
    rfl

end Scan

section Histories

def BucketEvent.bucket : BucketEvent → UInt64
  | .inserted bucket _ | .referenced bucket _ | .passed bucket | .evicted bucket _ => bucket

/-- The instant of a check. -/
def BucketEvent.checked? : BucketEvent → Option Nat
  | .inserted _ instant | .referenced _ instant => some instant
  | .passed _ | .evicted _ _ => none

def BucketEvent.isReference : BucketEvent → Bool
  | .referenced _ _ => true
  | .inserted _ _ | .passed _ | .evicted _ _ => false

/-- Whether a bucket was checked again since it was inserted or last passed over, with the
newest event first. -/
def referencedSince (key : UInt64) : List BucketEvent → Bool
  | [] => false
  | event :: older =>
    if event.bucket = key then event.isReference else referencedSince key older

/-- When a bucket was last checked. -/
def lastChecked (key : UInt64) : List BucketEvent → Option Nat
  | [] => none
  | event :: older =>
    if event.bucket = key then event.checked?.or (lastChecked key older)
    else lastChecked key older

def BucketEvent.evicted? : BucketEvent → Option UInt64
  | .evicted bucket _ => some bucket
  | .inserted _ _ | .referenced _ _ | .passed _ => none

/-- The buckets evicted so far. -/
def evictions (history : List BucketEvent) : List UInt64 := history.filterMap BucketEvent.evicted?

variable {key : UInt64} {recent : List BucketEvent}

theorem referencedSince_skip
    (other : ∀ event ∈ recent, event.bucket ≠ key) (history : List BucketEvent) :
    referencedSince key (recent ++ history) = referencedSince key history := by
  induction recent with
  | nil => rfl
  | cons event recent ih =>
    obtain ⟨own, others⟩ := List.forall_mem_cons.mp other
    rw [cons_append, referencedSince, if_neg own, ih others]

theorem lastChecked_skip (other : ∀ event ∈ recent, event.bucket ≠ key ∨ event.checked? = none)
    (history : List BucketEvent) :
    lastChecked key (recent ++ history) = lastChecked key history := by
  induction recent with
  | nil => rfl
  | cons event recent ih =>
    obtain ⟨own, others⟩ := List.forall_mem_cons.mp other
    rw [cons_append, lastChecked, ih others]
    rcases own with apart | unchecked
    · rw [if_neg apart]
    · rw [unchecked, none_or, ite_self]

theorem forall_passed {passed : List UInt64} {holds : BucketEvent → Prop} :
    (∀ event ∈ (passed.map BucketEvent.passed).reverse, holds event) ↔
      ∀ key ∈ passed, holds (.passed key) := by
  simp

/-- A bucket that was passed over has no reference left. -/
theorem referencedSince_passed {passed : List UInt64} (listed : key ∈ passed)
    (history : List BucketEvent) :
    referencedSince key ((passed.map BucketEvent.passed).reverse ++ history) = false := by
  induction passed generalizing history with
  | nil => cases listed
  | cons first passed ih =>
    rw [map_cons, reverse_cons, append_assoc, singleton_append]
    by_cases later : key ∈ passed
    · exact ih later _
    · have same : key = first := (List.mem_cons.mp listed).resolve_right later
      subst same
      have own : (BucketEvent.passed key).bucket = key := rfl
      rw [referencedSince_skip, referencedSince, if_pos own, BucketEvent.isReference]
      exact forall_passed.mpr fun other inside same => later (same ▸ inside)

end Histories

section Runs

/-- A store and what has happened to its buckets, newest first. -/
structure Trace (F : Type) where
  store : BucketStore F
  history : List BucketEvent

variable {F : Type} {trace : Trace F} {call : String × Nat}

/-- What a trace always keeps. -/
structure Kept (trace : Trace F) : Prop where
  matched : trace.store.Matched
  bounded : trace.store.hand.length ≤ trace.store.capacity
  live : trace.store.liveBuckets = trace.store.hand.length
  bits : ∀ key bucket, trace.store.map.lookup key = some bucket →
    bucket.referenced = referencedSince key trace.history ∧
      lastChecked key trace.history = some bucket.lastRefill

/-- A bucket idle for the whole TTL, or not checked again since it was last passed over. -/
def Trace.Ripe (trace : Trace F) (now : Nat) (key : UInt64) : Prop :=
  (∃ instant, lastChecked key trace.history = some instant ∧
      trace.store.idleTtl ≤ now - instant) ∨ referencedSince key trace.history = false

/-- A check of a bucket that is there. -/
def Trace.refer (trace : Trace F) (key : UInt64) (tokens : F) (now : Nat) : Trace F where
  store := { trace.store with
    map := trace.store.map.insert key { tokens, lastRefill := now, referenced := true } }
  history := .referenced key now :: trace.history

/-- A fresh bucket at the back of the hand. -/
def Trace.insert (trace : Trace F) (key : UInt64) (tokens : F) (now : Nat) : Trace F where
  store := { trace.store with
    map := trace.store.map.insert key { tokens, lastRefill := now, referenced := false }
    hand := trace.store.hand ++ [key]
    liveBuckets := trace.store.liveBuckets + 1 }
  history := .inserted key now :: trace.history

def Trace.evict (trace : Trace F) (passed : List UInt64) (victim : UInt64)
    (remaining : List UInt64) (reason : EvictionReason) : Trace F where
  store := trace.store.evicted passed victim remaining
  history := .evicted victim reason :: ((passed.map .passed).reverse ++ trace.history)

theorem Trace.keys_evict (trace : Trace F) (passed : List UInt64) (victim : UInt64)
    (remaining : List UInt64) (reason : EvictionReason) :
    (trace.evict passed victim remaining reason).store.map.keys.Perm
      (trace.store.map.keys.erase victim) := by
  rw [Trace.evict, BucketStore.evicted, AList.keys_erase]
  exact (keys_clearReferences _ _).erase victim

theorem Trace.fresh_after_evict {trace : Trace F} {key : UInt64} (absent : key ∉ trace.store.map)
    (passed : List UInt64) (victim : UInt64) (remaining : List UInt64) (reason : EvictionReason) :
    key ∉ (trace.evict passed victim remaining reason).store.map := by
  intro listed
  rw [AList.mem_keys, (trace.keys_evict passed victim remaining reason).mem_iff] at listed
  exact absent (AList.mem_keys.mpr (mem_of_mem_erase listed))

/-- A new store with nothing behind it. -/
def Trace.start (capacity idleTtl : Nat) (hashOf : String → UInt64) : Trace F where
  store := .new capacity idleTtl hashOf
  history := []

theorem start_kept (capacity idleTtl : Nat) (hashOf : String → UInt64) :
    Kept (Trace.start capacity idleTtl hashOf : Trace F) where
  matched := .refl _
  bounded := Nat.zero_le _
  live := rfl
  bits _ _ found := by cases found

theorem Trace.evictions_evict (trace : Trace F) (passed : List UInt64) (victim : UInt64)
    (remaining : List UInt64) (reason : EvictionReason) :
    evictions (trace.evict passed victim remaining reason).history =
      victim :: evictions trace.history := by
  have none_ : (passed.map BucketEvent.passed).reverse.filterMap BucketEvent.evicted? = [] :=
    filterMap_eq_nil_iff.mpr (forall_passed.mpr fun _ _ => rfl)
  have own : (BucketEvent.evicted victim reason).evicted? = some victim := rfl
  rw [Trace.evict, evictions, filterMap_cons_some own, filterMap_append, none_]
  rfl

namespace Kept

variable {trace : Trace F} {key victim : UInt64} {tokens : F} {now : Nat}
  {passed remaining : List UInt64} {reason : EvictionReason}

section

variable (kept : Kept trace)

include kept

theorem size : trace.store.map.entries.length = trace.store.hand.length := by
  rw [kept.matched.length_eq, AList.keys, List.keys, length_map]

/-- A check decides its own bucket's bits and leaves the others'. -/
theorem bits_insert {event : BucketEvent} {fresh : TokenBucket F} (own : event.bucket = key)
    (bit : event.isReference = fresh.referenced) (checks : event.checked? = some fresh.lastRefill)
    (other : UInt64) (bucket : TokenBucket F)
    (found : (trace.store.map.insert key fresh).lookup other = some bucket) :
    bucket.referenced = referencedSince other (event :: trace.history) ∧
      lastChecked other (event :: trace.history) = some bucket.lastRefill := by
  rw [referencedSince, lastChecked, own]
  by_cases same : other = key
  · subst same
    rw [AList.lookup_insert, Option.some.injEq] at found
    rw [if_pos rfl, if_pos rfl, ← found, bit, checks, some_or]
    exact ⟨rfl, rfl⟩
  · rw [AList.lookup_insert_ne same] at found
    rw [if_neg (Ne.symm same), if_neg (Ne.symm same)]
    exact kept.bits other bucket found

theorem refer (present : key ∈ trace.store.map) : Kept (trace.refer key tokens now) where
  matched := kept.matched.trans (keys_insert_perm present).symm
  bounded := kept.bounded
  live := kept.live
  bits := kept.bits_insert rfl rfl rfl

theorem insert (absent : key ∉ trace.store.map)
    (room : trace.store.hand.length < trace.store.capacity) :
    Kept (trace.insert key tokens now) where
  matched := by
    have fresh : key ∉ trace.store.map.keys := fun listed => absent (AList.mem_keys.mpr listed)
    rw [BucketStore.Matched, Trace.insert, AList.keys_insert, erase_of_not_mem fresh]
    exact (perm_append_singleton _ _).trans (kept.matched.cons _)
  bounded := by
    rw [Trace.insert, length_append, length_singleton]
    exact room
  live := by
    rw [Trace.insert, length_append, length_singleton, kept.live]
  bits := kept.bits_insert rfl rfl rfl

theorem evict {ripe : UInt64 → Prop}
    (chosen : SecondChance.Chosen ripe trace.store.hand passed victim remaining) :
    Kept (trace.evict passed victim remaining reason) where
  matched := by
    have keys : (clearReferences trace.store.map passed).keys.Perm (victim :: remaining) :=
      (keys_clearReferences _ _).trans (kept.matched.symm.trans chosen.perm)
    have erased := keys.erase victim
    rw [erase_cons_head] at erased
    rw [BucketStore.Matched, Trace.evict, BucketStore.evicted, AList.keys_erase]
    exact erased.symm
  bounded := by
    have shorter := chosen.length_eq
    have bounded := kept.bounded
    rw [Trace.evict, BucketStore.evicted]
    dsimp only
    omega
  live := by
    have shorter := chosen.length_eq
    have live := kept.live
    rw [Trace.evict, BucketStore.evicted]
    dsimp only
    omega
  bits other bucket found := by
    have apart : other ≠ victim := by
      rintro rfl
      rw [Trace.evict, BucketStore.evicted, AList.lookup_erase] at found
      cases found
    have gone : (BucketEvent.evicted victim reason).bucket ≠ other := Ne.symm apart
    rw [Trace.evict, BucketStore.evicted, AList.lookup_erase_ne apart, lookup_clearReferences]
      at found
    rw [Trace.evict, referencedSince, lastChecked, if_neg gone, if_neg gone, lastChecked_skip]
    · by_cases inside : other ∈ passed
      · rw [if_pos inside, map_eq_some_iff] at found
        obtain ⟨before, listed, rfl⟩ := found
        exact ⟨(referencedSince_passed inside _).symm, (kept.bits other before listed).2⟩
      · rw [if_neg inside] at found
        rw [referencedSince_skip]
        · exact kept.bits other bucket found
        · exact forall_passed.mpr fun key listed same => inside (same ▸ listed)
    · exact forall_passed.mpr fun _ _ => .inr rfl

/-- The store's bits say what the history says. -/
theorem ripe_iff (listed : key ∈ trace.store.hand) :
    trace.store.Ripe now key ↔ trace.Ripe now key := by
  obtain ⟨bucket, found⟩ := kept.matched.lookup_of_mem listed
  obtain ⟨referenced, checked⟩ := kept.bits key bucket found
  simp [BucketStore.Ripe, Trace.Ripe, found, checked, referenced]

end

end Kept

variable [Doubles F] (limiter : RateLimiter F)

def RateLimiter.step (trace : Trace F) (call : String × Nat) : Trace F :=
  let (_, events, store) := limiter.checkAt trace.store call.1 call.2
  { store, history := events.reverse ++ trace.history }

def RateLimiter.run (trace : Trace F) (calls : List (String × Nat)) : Trace F :=
  calls.foldl limiter.step trace

theorem step_present {bucket : TokenBucket F}
    (found : trace.store.map.lookup (trace.store.hashOf call.1) = some bucket) :
    ∃ tokens, limiter.step trace call = trace.refer (trace.store.hashOf call.1) tokens call.2 := by
  refine ⟨(spendToken bucket.tokens (asSecs (call.2 - bucket.lastRefill)) limiter.rps
    limiter.burst).2, ?_⟩
  rw [RateLimiter.step, RateLimiter.checkAt]
  dsimp only
  rw [found]
  rfl

theorem step_room (absent : trace.store.hashOf call.1 ∉ trace.store.map)
    (room : ¬ trace.store.capacity ≤ trace.store.map.entries.length) :
    ∃ tokens, limiter.step trace call =
      trace.insert (trace.store.hashOf call.1) tokens call.2 := by
  refine ⟨(spendToken limiter.burst zero limiter.rps limiter.burst).2, ?_⟩
  rw [RateLimiter.step, RateLimiter.checkAt]
  dsimp only
  rw [AList.lookup_eq_none.mpr absent, if_neg room]
  rfl

theorem step_full (call : String × Nat) (kept : Kept trace) (some_ : 0 < trace.store.capacity)
    (absent : trace.store.hashOf call.1 ∉ trace.store.map)
    (full : trace.store.capacity ≤ trace.store.map.entries.length) :
    ∃ passed victim remaining reason tokens,
      SecondChance.Chosen (trace.Ripe call.2) trace.store.hand passed victim remaining ∧
        limiter.step trace call = (trace.evict passed victim remaining reason).insert
          (trace.store.hashOf call.1) tokens call.2 := by
  have occupied : trace.store.hand ≠ [] := by
    rw [kept.size] at full
    exact ne_nil_of_length_pos (by omega)
  obtain ⟨passed, victim, remaining, chosen⟩ :=
    SecondChance.Chosen.exists_of_ne_nil (trace.store.Ripe call.2) occupied
  obtain ⟨reason, evicts⟩ := evictOne_eq kept.matched chosen
  refine ⟨passed, victim, remaining, reason,
    (spendToken limiter.burst zero limiter.rps limiter.burst).2,
    chosen.congr fun key listed => kept.ripe_iff listed, ?_⟩
  rw [RateLimiter.step, RateLimiter.checkAt]
  dsimp only
  rw [AList.lookup_eq_none.mpr absent, if_pos full, evicts]
  simp only [reverse_append, append_assoc, singleton_append]
  rfl

/-- The settings of a store never change. -/
def SameSettings (before after : BucketStore F) : Prop :=
  after.capacity = before.capacity ∧ after.hashOf = before.hashOf

theorem step_kept (kept : Kept trace) (some_ : 0 < trace.store.capacity) (call : String × Nat) :
    Kept (limiter.step trace call) ∧ SameSettings trace.store (limiter.step trace call).store := by
  by_cases present : trace.store.hashOf call.1 ∈ trace.store.map
  · obtain ⟨bucket, found⟩ := Option.isSome_iff_exists.mp (AList.lookup_isSome.mpr present)
    obtain ⟨tokens, step⟩ := step_present limiter found
    rw [step]
    exact ⟨kept.refer present, rfl, rfl⟩
  · by_cases full : trace.store.capacity ≤ trace.store.map.entries.length
    · obtain ⟨passed, victim, remaining, reason, tokens, chosen, step⟩ :=
        step_full limiter call kept some_ present full
      rw [step]
      refine ⟨(kept.evict chosen).insert ?_ ?_, rfl, rfl⟩
      · exact Trace.fresh_after_evict present passed victim remaining reason
      · have shorter := chosen.length_eq
        have bounded := kept.bounded
        rw [Trace.evict, BucketStore.evicted]
        dsimp only
        omega
    · obtain ⟨tokens, step⟩ := step_room limiter present full
      rw [step]
      rw [kept.size] at full
      exact ⟨kept.insert present (by omega), rfl, rfl⟩

theorem run_kept (kept : Kept trace) (some_ : 0 < trace.store.capacity)
    (calls : List (String × Nat)) :
    Kept (limiter.run trace calls) ∧ SameSettings trace.store (limiter.run trace calls).store := by
  induction calls generalizing trace with
  | nil => exact ⟨kept, rfl, rfl⟩
  | cons call calls ih =>
    obtain ⟨after, capacity, hashOf⟩ := step_kept limiter kept some_ call
    rw [RateLimiter.run, foldl_cons, ← RateLimiter.run]
    obtain ⟨final, lastCapacity, lastHashOf⟩ := ih after (capacity ▸ some_)
    exact ⟨final, lastCapacity.trans capacity, lastHashOf.trans hashOf⟩

/-- An insertion into a full store evicts exactly the bucket the clock chooses. -/
theorem step_evicts (kept : Kept trace) (some_ : 0 < trace.store.capacity) {key : String}
    {now : Nat} (absent : trace.store.hashOf key ∉ trace.store.map)
    (full : trace.store.map.keys.length = trace.store.capacity) :
    ∃ passed victim remaining,
      SecondChance.Chosen (trace.Ripe now) trace.store.hand passed victim remaining ∧
        (limiter.step trace (key, now)).store.map.keys.Perm
          (trace.store.hashOf key :: trace.store.map.keys.erase victim) ∧
        evictions (limiter.step trace (key, now)).history = victim :: evictions trace.history ∧
        ∀ bucket ∈ trace.store.hand, trace.Ripe now bucket → trace.Ripe now victim := by
  have packed : trace.store.capacity ≤ trace.store.map.entries.length := by
    rw [kept.size, kept.matched.length_eq, full]
  obtain ⟨passed, victim, remaining, reason, tokens, chosen, step⟩ :=
    step_full limiter (key, now) kept some_ absent packed
  refine ⟨passed, victim, remaining, chosen, ?_, ?_, fun bucket listed => chosen.ripe_of_mem listed⟩
  · have fresh := Trace.fresh_after_evict absent passed victim remaining reason
    rw [step, Trace.insert, AList.keys_insert,
      erase_of_not_mem fun listed => fresh (AList.mem_keys.mpr listed)]
    exact (trace.keys_evict passed victim remaining reason).cons _
  · have own : (BucketEvent.inserted (trace.store.hashOf key) now).evicted? = none := rfl
    rw [step, Trace.insert, evictions, filterMap_cons_none own]
    exact trace.evictions_evict passed victim remaining reason

/-- Whatever the calls, the map holds at most `capacity` buckets, the hand lists exactly its
keys without a repetition and the counter counts them; and an insertion into a full store
evicts exactly the bucket a second-chance clock chooses, which is ripe if any is. -/
theorem RateLimiter.run_secondChance {capacity : Nat} (some_ : 1 ≤ capacity) (idleTtl : Nat)
    (hashOf : String → UInt64) (calls : List (String × Nat)) (key : String) (now : Nat) :
    let before := limiter.run (.start capacity idleTtl hashOf) calls
    let after := limiter.step before (key, now)
    before.store.map.keys.length ≤ capacity ∧ before.store.hand.Nodup ∧
      (∀ bucket, bucket ∈ before.store.hand ↔ bucket ∈ before.store.map) ∧
      before.store.liveBuckets = before.store.map.keys.length ∧
      (hashOf key ∉ before.store.map → before.store.map.keys.length = capacity →
        ∃ passed victim remaining,
          SecondChance.Chosen (before.Ripe now) before.store.hand passed victim remaining ∧
            after.store.map.keys.Perm (hashOf key :: before.store.map.keys.erase victim) ∧
            evictions after.history = victim :: evictions before.history ∧
            ∀ bucket ∈ before.store.hand, before.Ripe now bucket → before.Ripe now victim) := by
  intro before after
  obtain ⟨kept, sameCapacity, sameHash⟩ :=
    run_kept limiter (start_kept capacity idleTtl hashOf) some_ calls
  have held : before.store.capacity = capacity := sameCapacity
  have hashed : before.store.hashOf = hashOf := sameHash
  have size : before.store.map.keys.length = before.store.hand.length := kept.matched.length_eq.symm
  refine ⟨?_, kept.matched.nodup, kept.matched.mem_iff, ?_, fun absent full => ?_⟩
  · rw [size, ← held]
    exact kept.bounded
  · rw [size]
    exact kept.live
  · rw [← hashed] at absent ⊢
    exact step_evicts limiter kept (held.symm ▸ some_) absent (full.trans held.symm)

/-- The bucket has been idle for the whole TTL. -/
def BucketStore.Idle (store : BucketStore F) (now : Nat) (key : UInt64) : Prop :=
  ∃ bucket, store.map.lookup key = some bucket ∧ store.idleTtl ≤ now - bucket.lastRefill

/-- The bucket is not idle and has no reprieve. -/
def BucketStore.Unused (store : BucketStore F) (now : Nat) (key : UInt64) : Prop :=
  ∃ bucket, store.map.lookup key = some bucket ∧
    ¬ store.idleTtl ≤ now - bucket.lastRefill ∧ bucket.referenced = false

/-- While some bucket is idle, the scan meets an idle one before every unused one. -/
def BucketStore.IdleAhead (store : BucketStore F) (now : Nat) : Prop :=
  (∃ key, store.Idle now key) → ∀ front key back, store.hand = front ++ key :: back →
    store.Unused now key → ∃ earlier ∈ front, store.Idle now earlier

namespace BucketStore

omit [Doubles F]

variable {store : BucketStore F} {now : Nat} {key : UInt64}

theorem Idle.ripe (idle : store.Idle now key) : store.Ripe now key := by
  obtain ⟨bucket, found, late⟩ := idle
  exact ⟨bucket, found, .inl late⟩

theorem Unused.ripe (unused : store.Unused now key) : store.Ripe now key := by
  obtain ⟨bucket, found, -, unreferenced⟩ := unused
  exact ⟨bucket, found, .inr unreferenced⟩

theorem Unused.not_idle (unused : store.Unused now key) : ¬ store.Idle now key := by
  rintro ⟨bucket, found, late⟩
  obtain ⟨same, existed, fresh, -⟩ := unused
  rw [found, Option.some.injEq] at existed
  exact fresh (existed ▸ late)

theorem Ripe.idle_or_unused (ripe : store.Ripe now key) :
    store.Idle now key ∨ store.Unused now key := by
  obtain ⟨bucket, found, held⟩ := ripe
  by_cases late : store.idleTtl ≤ now - bucket.lastRefill
  · exact .inl ⟨bucket, found, late⟩
  · exact .inr ⟨bucket, found, late, held.resolve_left late⟩

theorem Matched.mem_of_idle (matched : store.Matched) (idle : store.Idle now key) :
    key ∈ store.hand := by
  obtain ⟨bucket, found, -⟩ := idle
  exact (matched.mem_iff key).mpr (AList.lookup_isSome.mp (isSome_of_eq_some found))

/-- An idle bucket goes before the others just where the scan meets it first. -/
theorem idle_of_chosen_iff {passed remaining : List UInt64} {victim : UInt64}
    (matched : store.Matched)
    (chosen : SecondChance.Chosen (store.Ripe now) store.hand passed victim remaining) :
    ((∃ key, store.Idle now key) → store.Idle now victim) ↔ store.IdleAhead now := by
  rw [IdleAhead]
  have listed : ∀ key, store.Idle now key → key ∈ store.hand := fun key => matched.mem_of_idle
  generalize store.hand = hand at chosen listed
  cases chosen with
  | @first _ back _ unripe stops =>
    constructor
    · intro first some_ front key rest split unused
      refine ⟨victim, ?_, first some_⟩
      have apart : victim ≠ key := fun same => unused.not_idle (same ▸ first some_)
      rcases List.append_eq_append_iff.mp split with ⟨middle, rfl, same⟩ | ⟨middle, rfl, same⟩
      · cases middle with
        | nil => exact absurd (List.cons.inj same).1 apart
        | cons next middle =>
          rw [(List.cons.inj same).1]
          exact mem_append_right _ mem_cons_self
      · -- the unused bucket would be among those passed over
        cases middle with
        | nil => exact absurd (List.cons.inj same).1.symm apart
        | cons next middle =>
          rw [← (List.cons.inj same).1] at unripe
          exact absurd unused.ripe (unripe key (by simp))
    · intro ahead some_
      rcases stops.idle_or_unused with idle | unused
      · exact idle
      · obtain ⟨earlier, inside, idle⟩ := ahead some_ passed victim back rfl unused
        exact absurd idle.ripe (unripe earlier inside)
  | none_ripe unripe =>
    have none_ : ¬ ∃ key, store.Idle now key := by
      rintro ⟨key, idle⟩
      exact unripe key (listed key idle) idle.ripe
    exact ⟨fun _ some_ => absurd some_ none_, fun _ some_ => absurd some_ none_⟩

end BucketStore

/-- Whatever the calls, an eviction takes an idle bucket while there is one just when the scan
meets an idle bucket before every unused one. -/
theorem RateLimiter.evictOne_idle_iff {capacity : Nat} (some_ : 1 ≤ capacity) (idleTtl : Nat)
    (hashOf : String → UInt64) (calls : List (String × Nat)) (now : Nat) (victim : UInt64)
    (reason : EvictionReason) :
    let store := (limiter.run (.start capacity idleTtl hashOf) calls).store
    .evicted victim reason ∈ (store.evictOne now).1 →
      (((∃ key, store.Idle now key) → store.Idle now victim) ↔ store.IdleAhead now) := by
  intro store evicts
  obtain ⟨kept, -⟩ := run_kept limiter (start_kept capacity idleTtl hashOf) some_ calls
  have occupied : store.hand ≠ [] := by
    intro empty
    simp [BucketStore.evictOne, empty, BucketStore.evictFrom, BucketStore.evictFront] at evicts
  obtain ⟨passed, chosenVictim, remaining, chosen⟩ :=
    SecondChance.Chosen.exists_of_ne_nil (store.Ripe now) occupied
  obtain ⟨chosenReason, evicted⟩ := evictOne_eq kept.matched chosen
  obtain ⟨rfl, -⟩ : victim = chosenVictim ∧ reason = chosenReason := by
    rw [evicted] at evicts
    simpa using evicts
  exact BucketStore.idle_of_chosen_iff kept.matched chosen

end Runs

section Sample

/-- Whole tokens in place of doubles. -/
@[reducible] def wholeTokens : Doubles Nat where
  add := (· + ·)
  sub := (· - ·)
  mul := (· * ·)
  min := Nat.min
  atLeast left right := decide (right ≤ left)
  zero := 0
  one := 1
  asSecs := id

attribute [local instance] wholeTokens

def sampleLimiter : RateLimiter Nat := { rps := 1, burst := 2 }

/-- A hash that tells keys of different lengths apart. -/
def lengthHash (key : String) : UInt64 := UInt64.ofNat key.length

theorem RateLimiter.run_secondChance_sample :
    let before := sampleLimiter.run (.start 2 100 lengthHash) [("a", 0), ("bb", 1), ("a", 2)]
    before.store.map.keys.length = 2 ∧ lengthHash "ccc" ∉ before.store.map ∧
      ∃ passed victim remaining,
        SecondChance.Chosen (before.Ripe 3) before.store.hand passed victim remaining ∧
          (sampleLimiter.step before ("ccc", 3)).store.map.keys.Perm
            (lengthHash "ccc" :: before.store.map.keys.erase victim) := by
  intro before
  have size : before.store.map.keys.length = 2 := by decide
  have absent : lengthHash "ccc" ∉ before.store.map := by decide
  obtain ⟨-, -, -, -, evicts⟩ := RateLimiter.run_secondChance sampleLimiter (by decide : 1 ≤ 2) 100
    lengthHash [("a", 0), ("bb", 1), ("a", 2)] "ccc" 3
  obtain ⟨passed, victim, remaining, chosen, keys, -⟩ := evicts absent size
  exact ⟨size, absent, passed, victim, remaining, chosen, keys⟩

/-- A bucket that earned a reprieve, behind a newer one that was never checked again. -/
def demotedCalls : List (String × Nat) := [("a", 0), ("a", 1), ("bb", 8), ("ccc", 8), ("dddd", 9)]

/-- A bucket checked three instants ago goes while another has been idle for the whole TTL. -/
theorem RateLimiter.evictOne_passes_idle :
    let store := (sampleLimiter.run (.start 3 10 lengthHash) demotedCalls).store
    store.Idle 11 (lengthHash "a") ∧ .evicted (lengthHash "ccc") .capacity ∈ (store.evictOne 11).1 ∧
      store.Unused 11 (lengthHash "ccc") := by
  intro store
  refine ⟨⟨{ tokens := 1, lastRefill := 1, referenced := false }, ?_, ?_⟩, ?_,
    ⟨{ tokens := 1, lastRefill := 8, referenced := false }, ?_, ?_, rfl⟩⟩ <;> decide

theorem RateLimiter.evictOne_idle_iff_sample :
    let store := (sampleLimiter.run (.start 2 10 lengthHash) [("a", 0), ("bb", 5)]).store
    .evicted (lengthHash "a") .ttl ∈ (store.evictOne 11).1 ∧
      (((∃ key, store.Idle 11 key) → store.Idle 11 (lengthHash "a")) ↔ store.IdleAhead 11) := by
  intro store
  have evicts : .evicted (lengthHash "a") .ttl ∈ (store.evictOne 11).1 := by decide
  exact ⟨evicts, RateLimiter.evictOne_idle_iff sampleLimiter (by decide) 10 lengthHash
    [("a", 0), ("bb", 5)] 11 (lengthHash "a") .ttl evicts⟩

end Sample

end GreenGateway.Middleware
