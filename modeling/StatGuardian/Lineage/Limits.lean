import Mathlib.Data.Finset.Dedup
import StatGuardian.Lineage.Storage

namespace StatGuardian.Lineage

variable {J : Type}

/-- The highest of the numbers, as many as the limit allows, in strictly decreasing order. -/
structure Honours (numbers : Finset Nat) (limit : Nat) (result : List Nat) : Prop where
  decreasing : result.Pairwise (· > ·)
  stored : ∀ v ∈ result, v ∈ numbers
  size : result.length = min limit numbers.card
  highest : ∀ v ∈ result, ∀ w ∈ numbers, w ∉ result → w < v

section Take

variable {numbers : List Nat}

theorem card_toFinset_of_decreasing (decreasing : numbers.Pairwise (· > ·)) :
    numbers.toFinset.card = numbers.length :=
  List.toFinset_card_of_nodup (decreasing.imp fun above => above.ne')

theorem honours_take_iff (decreasing : numbers.Pairwise (· > ·)) (limit taken : Nat) :
    Honours numbers.toFinset limit (numbers.take taken) ↔
      min taken numbers.length = min limit numbers.length := by
  have card := card_toFinset_of_decreasing decreasing
  constructor
  · intro honours
    have size := honours.size
    rwa [List.length_take, card] at size
  · intro size
    refine ⟨decreasing.sublist (List.take_sublist _ _), ?_, by rwa [List.length_take, card], ?_⟩
    · exact fun v member => List.mem_toFinset.mpr (List.mem_of_mem_take member)
    · intro v first w stored later
      have cut := List.take_append_drop taken numbers
      rw [List.mem_toFinset, ← cut, List.mem_append] at stored
      rw [← cut, List.pairwise_append] at decreasing
      exact decreasing.2.2 v first w (stored.resolve_left later)

end Take

section Limit

/-- The limit modulo `2^32`, with none from `2^31` on. -/
theorem sqlLimit_asI32 {α : Type} (limit : Nat) (rows : List α) : sqlLimit (asI32 limit) rows =
    if limit % 2 ^ 32 < 2 ^ 31 then rows.take (limit % 2 ^ 32) else rows := by
  have wrapped : asI32 limit = if limit % 2 ^ 32 < 2 ^ 31 then ((limit % 2 ^ 32 : Nat) : Int)
      else ((limit % 2 ^ 32 : Nat) : Int) - 2 ^ 32 := by
    rw [asI32, BitVec.toInt_eq_toNat_cond, BitVec.toNat_ofNat]
    split_ifs <;> omega
  rw [wrapped, sqlLimit]
  split_ifs
  · omega
  · rw [Int.toNat_natCast]
  · rfl
  · omega

/-- The cast keeps the limit, or what it makes of it does not matter for so few versions. -/
def KeepsLimit (limit stored : Nat) : Prop :=
  if limit % 2 ^ 32 < 2 ^ 31 then limit < 2 ^ 31 ∨ stored ≤ limit % 2 ^ 32
  else stored ≤ limit

theorem min_eq_iff_keepsLimit (limit stored : Nat) :
    min (if limit % 2 ^ 32 < 2 ^ 31 then limit % 2 ^ 32 else stored) stored = min limit stored ↔
      KeepsLimit limit stored := by
  unfold KeepsLimit
  split_ifs <;> omega

end Limit

section Store

variable (store : Store J) (warehouseId : String)

def Store.storedNumbers : Finset Nat :=
  ((store.versions.rows.filter fun row => row.warehouseId = warehouseId).map
    VersionRow.versionNumber).toFinset

theorem toFinset_versionNumbers :
    (store.versionNumbers warehouseId).toFinset = store.storedNumbers warehouseId :=
  List.toFinset_eq_of_perm _ _ (List.perm_insertionSort _ _)

theorem versionNumbers_decreasing : (store.versionNumbers warehouseId).Pairwise (· > ·) := by
  have distinct : (store.versionNumbers warehouseId).Nodup := by
    refine (List.perm_insertionSort _ _).nodup_iff.mpr ?_
    refine List.pairwise_map.mpr ?_
    refine (store.versions.apart.filter _).imp_of_mem fun {a b} memberA memberB apart same => ?_
    have ofA := of_decide_eq_true (List.mem_filter.mp memberA).2
    have ofB := of_decide_eq_true (List.mem_filter.mp memberB).2
    simp [VersionRow.clash, VersionRow.number, ofA, ofB, same] at apart
  have sorted : (store.versionNumbers warehouseId).Pairwise (· ≥ ·) :=
    List.pairwise_insertionSort _ _
  exact (sorted.and distinct).imp fun both => lt_of_le_of_ne both.1 both.2.symm

/-- The limit goes through an `i32`, so it is kept just below `2^31`, or where the store has no
    more versions than it turns into. -/
theorem listVersions_honours_iff (limit : Nat) :
    Honours (store.storedNumbers warehouseId) limit (listVersions store warehouseId limit) ↔
      KeepsLimit limit (store.storedNumbers warehouseId).card := by
  have decreasing := versionNumbers_decreasing store warehouseId
  have card := card_toFinset_of_decreasing decreasing
  rw [toFinset_versionNumbers] at card
  have taken : listVersions store warehouseId limit = (store.versionNumbers warehouseId).take
      (if limit % 2 ^ 32 < 2 ^ 31 then limit % 2 ^ 32
        else (store.versionNumbers warehouseId).length) := by
    rw [listVersions, sqlLimit_asI32]
    split_ifs
    · rfl
    · rw [List.take_length]
  rw [taken, ← toFinset_versionNumbers, honours_take_iff decreasing, toFinset_versionNumbers, card]
  exact min_eq_iff_keepsLimit limit _

end Store

section OneVersion

def firstVersion : VersionRow String where
  versionId := "w__v1"
  warehouseId := "w"
  versionNumber := 1
  timestamp := ""
  graphJson := ""
  schemaVersionsJson := ""
  qualityScoresJson := ""
  changeSeverity := "NONE"
  createdAt := ""

def oneVersion : Store String := ⟨UniqueTable.empty.insertOrReplace firstVersion, .empty⟩

/-- A limit of `2^32` becomes zero and nothing is listed. -/
theorem wrapped_limit_lists_none :
    ¬ Honours (oneVersion.storedNumbers "w") (2 ^ 32) (listVersions oneVersion "w" (2 ^ 32)) := by
  intro honours
  have none : listVersions oneVersion "w" (2 ^ 32) = [] := by
    rw [listVersions, sqlLimit_asI32, if_pos (by decide)]
    rfl
  have size := honours.size
  rw [none] at size
  exact absurd size (by decide)

end OneVersion

end StatGuardian.Lineage
