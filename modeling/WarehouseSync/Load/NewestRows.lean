import WarehouseSync.Load.Merge

namespace WarehouseSync
namespace Merge

open KeyedRows

/-!
# Batches of a sorted staging file

The extract writes its rows ordered by `(updated_at, id)`.  Inside a batch the
deduplication picks the newest version of an id by sorting; between batches the
later one wins by its position.  On an ordered file both pick a version with the
greatest `updated_at`, so it does not matter where the file is cut, nor how far
an earlier attempt at the same merge came.
-/

universe u v w

variable {ρ : Type u} {σ : Type v} {ι κ τ : Type w}

/-- Aligning casts the id to the type of the lake column, which holds the ids of the
file: different ids stay different.  Without the second field two staged rows could
become one key. -/
structure CastsIds (id : ρ -> Option ι) (pk : σ -> Option κ) (align : ρ -> σ) (cast : ι -> κ)
    (rows : List ρ) : Prop where
  aligned : forall row, pk (align row) = (id row).map cast
  distinct : forall left, left ∈ keys id rows -> forall right, right ∈ keys id rows ->
    cast left = cast right -> left = right

/-- A staged row of its id with the greatest `updated_at`.  There may be several of
them, and which one survives is left open: the code keeps the first after a stable
sort. -/
def IsNewest [LinearOrder τ] (id : ρ -> Option ι) (ts : ρ -> Option τ) (rows : List ρ)
    (version : ρ) : Prop :=
  version ∈ rows ∧ forall other, other ∈ rows -> id other = id version ->
    forall time, ts other = some time ->
      Exists fun later : τ => ts version = some later ∧ time ≤ later

section Casts

variable {id : ρ -> Option ι} {align : ρ -> σ} {pk : σ -> Option κ} {cast : ι -> κ}

theorem CastsIds.mono {rows fewer : List ρ} (casts : CastsIds id pk align cast rows)
    (included : forall row, row ∈ fewer -> row ∈ rows) : CastsIds id pk align cast fewer := by
  have listed : forall value, value ∈ keys id fewer -> value ∈ keys id rows := by
    intro value member
    rcases mem_keys.mp member with ⟨row, here, carries⟩
    exact mem_keys.mpr ⟨row, included row here, carries⟩
  exact ⟨casts.aligned, fun left leftMember right rightMember =>
    casts.distinct left (listed left leftMember) right (listed right rightMember)⟩

/-- The staged rows that land on a cast id are the rows of that id. -/
theorem CastsIds.same_iff {rows : List ρ} (casts : CastsIds id pk align cast rows) {number : ι}
    (listed : number ∈ keys id rows) {row : ρ} (member : row ∈ rows) :
    pk (align row) = some (cast number) ↔ id row = some number := by
  rw [casts.aligned]
  constructor
  · intro carries
    rcases Option.map_eq_some_iff.mp carries with ⟨other, same, equal⟩
    rw [same, casts.distinct other (mem_keys.mpr ⟨row, member, same⟩) number listed equal]
  · intro carries
    rw [carries]
    rfl

end Casts

section Batches

variable [LinearOrder ι] [LinearOrder τ] [DecidableEq κ] {id : ρ -> Option ι} {ts : ρ -> Option τ}
  {align : ρ -> σ} {pk : σ -> Option κ} {cast : ι -> κ}

/-- `left` may stand before `right` in a file ordered by `(updated_at, id)`.  The
relation is given a name so that it can be passed to the lemmas about sorted lists.
-/
def MayPrecede (id : ρ -> Option ι) (ts : ρ -> Option τ) (left right : ρ) : Prop :=
  forall leftTime rightTime leftId rightId,
    ts left = some leftTime -> ts right = some rightTime ->
    id left = some leftId -> id right = some rightId ->
      toLex (leftTime, leftId) ≤ toLex (rightTime, rightId)

/-- A newest version of a later batch is newest in the whole ordered file. -/
theorem IsNewest.append {early late : List ρ} {version : ρ} {number : ι}
    (stamps : forall row, row ∈ late -> (ts row).isSome)
    (ordered : (early ++ late).Pairwise (MayPrecede id ts)) (carries : id version = some number)
    (newest : IsNewest id ts late version) : IsNewest id ts (early ++ late) version := by
  refine ⟨List.mem_append_right _ newest.1, ?_⟩
  intro other member same time stamped
  rcases List.mem_append.mp member with before | after
  · rcases Option.isSome_iff_exists.mp (stamps version newest.1) with ⟨latest, stamp⟩
    have placed := (List.pairwise_append.mp ordered).2.2 other before version newest.1
      time latest number number stamped stamp (same.trans carries) carries
    exact ⟨latest, stamp, (Prod.Lex.toLex_le_toLex'.mp placed).1⟩
  · exact newest.2 other after same time stamped

end Batches

end Merge
end WarehouseSync
