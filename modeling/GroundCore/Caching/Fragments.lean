import Mathlib.Data.Finset.Card
import Mathlib.Data.List.MinMax
import GroundCore.Core.Types
import GroundCore.Lib.HashMap
import GroundCore.Lib.Run
import GroundCore.Lib.Sha256

/-! The cache of schedule fragments, which are stored under a hash of their pass ids.  The ids are
hashed one after the other without a mark between them, so lists that only differ in where an id
ends have one hash. -/

namespace GroundCore.Caching

open Lib

structure ScheduleFragment where
  passIds : List PassId
  committedAt : DateTime
  immutableUntil : DateTime
  hash : String
  deriving DecidableEq

namespace ScheduleFragment

/-- What the hasher is fed. -/
def hashedBytes (passIds : List PassId) : List UInt8 :=
  passIds.flatMap fun passId => passId.toUTF8.toList

def computeHash (sha256 : List UInt8 → List UInt8) (passIds : List PassId) : String :=
  hexLower (sha256 (hashedBytes passIds))

/-- `now` is the reading of the clock. -/
def new (sha256 : List UInt8 → List UInt8) (passIds : List PassId) (immutableDurationSec : ℤ)
    (now : DateTime) : ScheduleFragment :=
  { passIds, committedAt := now, immutableUntil := now + Duration.seconds immutableDurationSec
    hash := computeHash sha256 passIds }

variable {sha256 : List UInt8 → List UInt8}

theorem computeHash_inj (hsha : Function.Injective sha256) {passIds passIds' : List PassId} :
    computeHash sha256 passIds = computeHash sha256 passIds' ↔
      hashedBytes passIds = hashedBytes passIds' :=
  hexLower_inj.trans hsha.eq_iff

end ScheduleFragment

/-- Every fragment is stored under its own hash. -/
structure ScheduleFragmentCache where
  fragments : HashMap String ScheduleFragment
  maxFragments : ℕ
  keyed : ∀ hash fragment, fragments.get? hash = some fragment → fragment.hash = hash

namespace ScheduleFragmentCache

def new (maxFragments : ℕ) : ScheduleFragmentCache :=
  { fragments := ∅, maxFragments
    keyed := fun hash fragment h => by rw [HashMap.get?_empty] at h; contradiction }

def oldest (order : IterOrder ScheduleFragment) (fragments : HashMap String ScheduleFragment) :
    Option ScheduleFragment :=
  @List.argmin _ ℤ Int.instLinearOrder.toPreorder Int.instLinearOrder.toDecidableLT
    (·.committedAt) (order.order fragments.values)

/-- The loop that removes the oldest fragment while there are too many. -/
def prune (order : IterOrder ScheduleFragment) (maxFragments : ℕ) :
    ℕ → HashMap String ScheduleFragment → HashMap String ScheduleFragment
  | 0, fragments => fragments
  | fuel + 1, fragments =>
    if maxFragments < fragments.entries.length then
      match oldest order fragments with
      | some fragment => prune order maxFragments fuel (fragments.erase fragment.hash)
      | none => prune order maxFragments fuel fragments
    else fragments

theorem get?_of_prune {order : IterOrder ScheduleFragment} {maxFragments fuel : ℕ}
    {fragments : HashMap String ScheduleFragment} {hash : String} {fragment : ScheduleFragment}
    (h : (prune order maxFragments fuel fragments).get? hash = some fragment) :
    fragments.get? hash = some fragment := by
  induction fuel generalizing fragments with
  | zero => exact h
  | succ fuel ih =>
    unfold prune at h
    split at h
    · split at h
      · have hget := ih h
        rw [HashMap.get?_erase] at hget
        split at hget
        · contradiction
        · exact hget
      · exact ih h
    · exact h

theorem prune_of_le {order : IterOrder ScheduleFragment} {maxFragments : ℕ}
    {fragments : HashMap String ScheduleFragment} (h : fragments.entries.length ≤ maxFragments)
    (fuel : ℕ) : prune order maxFragments fuel fragments = fragments := by
  cases fuel with
  | zero => rfl
  | succ fuel => rw [prune, if_neg (Nat.not_lt.mpr h)]

/-- A round for every fragment is enough for the loop to end. -/
theorem length_prune_le {order : IterOrder ScheduleFragment} {maxFragments fuel : ℕ}
    {fragments : HashMap String ScheduleFragment}
    (keyed : ∀ hash fragment, fragments.get? hash = some fragment → fragment.hash = hash)
    (hfuel : fragments.entries.length ≤ fuel) :
    (prune order maxFragments fuel fragments).entries.length ≤ maxFragments := by
  induction fuel generalizing fragments with
  | zero => exact hfuel.trans (Nat.zero_le _)
  | succ fuel ih =>
    unfold prune
    split
    · next hmany =>
      cases hold : oldest order fragments with
      | none =>
        have hempty : order.order fragments.values = [] := List.argmin_eq_none.mp hold
        have hlength := (order.perm fragments.values).length_eq
        rw [hempty, HashMap.values, List.length_map, List.length_nil] at hlength
        omega
      | some fragment =>
        have hmem := (IterOrder.mem_order order).mp (List.argmin_mem hold)
        obtain ⟨hash, hget⟩ := HashMap.mem_values.mp hmem
        have hhash := keyed hash fragment hget
        subst hhash
        have herase := HashMap.length_erase hget
        refine ih (fun hash' fragment' hget' => ?_) (by omega)
        rw [HashMap.get?_erase] at hget'
        split at hget'
        · contradiction
        · exact keyed hash' fragment' hget'
    · next hfew => exact Nat.not_lt.mp hfew

/-- `order` gives the order in which the fragments are iterated over. -/
def addFragment (cache : ScheduleFragmentCache) (order : IterOrder ScheduleFragment)
    (fragment : ScheduleFragment) : ScheduleFragmentCache :=
  let fragments := cache.fragments.insert fragment.hash fragment
  { cache with
    fragments := prune order cache.maxFragments fragments.entries.length fragments
    keyed := fun hash fragment' h => by
      have hget := get?_of_prune h
      rw [HashMap.get?_insert] at hget
      split at hget
      · next heq => rw [heq, ← Option.some.inj hget]
      · exact cache.keyed hash fragment' hget }

def getFragment (cache : ScheduleFragmentCache) (hash : String) : Option ScheduleFragment :=
  cache.fragments.get? hash

end ScheduleFragmentCache

/-! ### Runs -/

/-- A fragment that is made and added. -/
structure AddCall where
  passIds : List PassId
  immutableDurationSec : ℤ
  now : DateTime
  order : IterOrder ScheduleFragment

namespace ScheduleFragmentCache

open ScheduleFragment

variable (sha256 : List UInt8 → List UInt8)

def step (cache : ScheduleFragmentCache) (call : AddCall) : ScheduleFragmentCache :=
  cache.addFragment call.order (.new sha256 call.passIds call.immutableDurationSec call.now)

/-- The fragment of a list of pass ids is found under its hash. -/
def Retrievable (cache : ScheduleFragmentCache) (passIds : List PassId) : Prop :=
  (cache.getFragment (computeHash sha256 passIds)).map (·.passIds) = some passIds

/-- Whatever was added to an empty cache is retrievable in the end. -/
def AllRetrievable (maxFragments : ℕ) (calls : List AddCall) : Prop :=
  ∀ call ∈ calls, Retrievable sha256 (run (step sha256) (new maxFragments) calls) call.passIds

variable {sha256}

/-- Whatever was added is stored under its hash, and nothing else. -/
structure Stores (sha256 : List UInt8 → List UInt8) (fragments : HashMap String ScheduleFragment)
    (calls : List AddCall) : Prop where
  stored : ∀ call ∈ calls,
    (fragments.get? (computeHash sha256 call.passIds)).map (·.passIds) = some call.passIds
  added : ∀ hash ∈ fragments.keys, ∃ call ∈ calls, computeHash sha256 call.passIds = hash

theorem Stores.length_le {fragments : HashMap String ScheduleFragment} {calls : List AddCall}
    (hstores : Stores sha256 fragments calls) :
    fragments.entries.length ≤ (calls.map (·.passIds)).toFinset.card := by
  have hsub : fragments.keys.toFinset ⊆
      (calls.map (·.passIds)).toFinset.image (computeHash sha256) := by
    intro hash hmem
    obtain ⟨call, hcall, rfl⟩ := hstores.added hash (List.mem_toFinset.mp hmem)
    exact Finset.mem_image_of_mem _ (List.mem_toFinset.mpr (List.mem_map_of_mem hcall))
  calc fragments.entries.length
      = fragments.keys.toFinset.card := by
        rw [List.toFinset_card_of_nodup fragments.nodup_keys, HashMap.keys, List.length_map]
    _ ≤ _ := Finset.card_le_card hsub
    _ ≤ _ := Finset.card_image_le

/-- One more call, whose hash is that of its own list only. -/
theorem Stores.insert {fragments : HashMap String ScheduleFragment} {calls : List AddCall}
    {call : AddCall} (hstores : Stores sha256 fragments calls)
    (hinj : ∀ call' ∈ calls, computeHash sha256 call'.passIds = computeHash sha256 call.passIds →
      call'.passIds = call.passIds) {fragment : ScheduleFragment}
    (hfragment : fragment.passIds = call.passIds) :
    Stores sha256 (fragments.insert (computeHash sha256 call.passIds) fragment)
      (calls ++ [call]) where
  stored call' hmem := by
    rw [HashMap.get?_insert]
    split
    · next heq =>
      have hlists : call'.passIds = call.passIds := by
        rcases List.mem_append.mp hmem with hmem | hmem
        · exact hinj call' hmem heq
        · rw [List.mem_singleton.mp hmem]
      rw [Option.map_some, hfragment, hlists]
    · next hne =>
      rcases List.mem_append.mp hmem with hmem | hmem
      · exact hstores.stored call' hmem
      · exact absurd (by rw [List.mem_singleton.mp hmem]) hne
  added hash hmem := by
    obtain ⟨fragment', hget⟩ := HashMap.mem_keys.mp hmem
    rw [HashMap.get?_insert] at hget
    split at hget
    · next heq => exact ⟨call, by simp, heq.symm⟩
    · obtain ⟨call', hcall', heq⟩ := hstores.added hash (HashMap.mem_keys.mpr ⟨fragment', hget⟩)
      exact ⟨call', List.mem_append_left _ hcall', heq⟩

@[simp] theorem maxFragments_run (cache : ScheduleFragmentCache) (calls : List AddCall) :
    (run (step sha256) cache calls).maxFragments = cache.maxFragments :=
  run_preserves (I := fun c : ScheduleFragmentCache => c.maxFragments = cache.maxFragments)
    (fun c call h => (show (step sha256 c call).maxFragments = _ from h)) rfl calls

/-- Where the hash tells the lists apart and there is room for all, nothing is removed. -/
theorem stores_run {calls : List AddCall} {maxFragments : ℕ}
    (hroom : (calls.map (·.passIds)).toFinset.card ≤ maxFragments)
    (hinj : ∀ call ∈ calls, ∀ call' ∈ calls,
      computeHash sha256 call.passIds = computeHash sha256 call'.passIds →
        call.passIds = call'.passIds) :
    Stores sha256 (run (step sha256) (new maxFragments) calls).fragments calls := by
  induction calls using List.reverseRecOn with
  | nil => exact ⟨by simp, by simp [new, HashMap.keys]⟩
  | append_singleton calls call ih =>
    have hsub : (calls.map (·.passIds)).toFinset ⊆
        ((calls ++ [call]).map (·.passIds)).toFinset := by
      rw [List.map_append, List.toFinset_append]
      exact Finset.subset_union_left
    have hstores := ih ((Finset.card_le_card hsub).trans hroom) fun c hc c' hc' =>
      hinj c (List.mem_append_left _ hc) c' (List.mem_append_left _ hc')
    have hcall : call ∈ calls ++ [call] := by simp
    have hnext := hstores.insert (fun c hc => hinj c (List.mem_append_left _ hc) call hcall)
      (rfl : (ScheduleFragment.new sha256 call.passIds call.immutableDurationSec call.now).passIds =
        call.passIds)
    rw [run_append, run_cons, run_nil, step, addFragment]
    dsimp only
    rw [prune_of_le (by rw [maxFragments_run]; exact hnext.length_le.trans hroom)]
    exact hnext

end ScheduleFragmentCache

open ScheduleFragment ScheduleFragmentCache

variable {sha256 : List UInt8 → List UInt8}

/-- Two lists have different hashes exactly if their ids, written one after the other, differ; and
the fragments of a run that has room for them stay retrievable exactly if this tells their lists
apart. -/
theorem retrievable_iff_bytes_ne (hsha : Function.Injective sha256) :
    (∀ (passIds passIds' : List PassId) (duration duration' : ℤ) (now now' : DateTime),
      (ScheduleFragment.new sha256 passIds duration now).hash ≠
          (ScheduleFragment.new sha256 passIds' duration' now').hash ↔
        hashedBytes passIds ≠ hashedBytes passIds') ∧
    ∀ (maxFragments : ℕ) (calls : List AddCall),
      (calls.map (·.passIds)).toFinset.card ≤ maxFragments →
      (AllRetrievable sha256 maxFragments calls ↔
        ∀ call ∈ calls, ∀ call' ∈ calls, call.passIds ≠ call'.passIds →
          hashedBytes call.passIds ≠ hashedBytes call'.passIds) := by
  refine ⟨fun _ _ _ _ _ _ => (computeHash_inj hsha).not, fun maxFragments calls hroom => ?_⟩
  constructor
  · intro hall call hcall call' hcall' hne heq
    have h := hall call hcall
    have h' := hall call' hcall'
    rw [Retrievable, (computeHash_inj hsha).mpr heq] at h
    exact hne (Option.some.inj (h.symm.trans h'))
  · intro hne
    refine (stores_run hroom fun call hcall call' hcall' heq => ?_).stored
    by_contra hlists
    exact hne call hcall call' hcall' hlists ((computeHash_inj hsha).mp heq)

/-! ### Two runs -/

/-- Fragments of the given lists, added one after the other. -/
def additions (lists : List (List PassId)) : List AddCall :=
  lists.map fun passIds => ⟨passIds, 300, 0, .stored ScheduleFragment⟩

def passLists : List (List PassId) := [["pass1"], ["pass1", "pass2"], ["pass1"]]

def splitLists : List (List PassId) := [["pass1", "0"], ["pass10"]]

def passHash : List UInt8 → List UInt8 :=
  sha256On [hashedBytes ["pass1"], hashedBytes ["pass1", "pass2"], hashedBytes ["pass10"]]

theorem passHash_injective : Function.Injective passHash :=
  sha256On_injective (by decide +kernel)

/-- The fragment of one pass takes the place of the fragment of two. -/
theorem split_collides :
    Function.Injective passHash ∧
    (ScheduleFragment.new passHash ["pass1", "0"] 300 0).hash =
      (ScheduleFragment.new passHash ["pass10"] 300 0).hash ∧
    ((additions splitLists).map (·.passIds)).toFinset.card ≤ 2 ∧
    ¬ AllRetrievable passHash 2 (additions splitLists) := by
  refine ⟨passHash_injective, by decide +kernel, by decide, fun hall => ?_⟩
  have h := hall _ List.mem_cons_self
  revert h
  unfold Retrievable
  decide +kernel

theorem passes_retrievable :
    (ScheduleFragment.new passHash ["pass1"] 300 0).hash ≠
      (ScheduleFragment.new passHash ["pass1", "pass2"] 300 0).hash ∧
    AllRetrievable passHash 2 (additions passLists) :=
  have h := retrievable_iff_bytes_ne passHash_injective
  ⟨(h.1 _ _ _ _ _ _).mpr (by decide +kernel),
    (h.2 2 (additions passLists) (by decide)).mpr (by decide +kernel)⟩

end GroundCore.Caching
