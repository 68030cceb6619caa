import WarehouseSync.Gateway.TokenScope

namespace WarehouseSync
namespace WipeScope

open App Auth Chunks ConfigStore TokenScope

/-!
# What a wipe takes from other connections

The stores say in three ways whom something belongs to.  A catalog table is in
the namespace of its connection, watermarks and chunk state carry its id, and an
object in S3 is in its bucket, or is a file of one of its tables.  Ids and
namespaces are unique among connections; buckets are not.
-/

/-- The object lies in the folders of the connection, or one of its tables is made
of it.  An object may have two owners, when two connections share a bucket. -/
def owns (store : Store) (conn : Connection) (object : S3Object) : Bool :=
  Store.wipes conn object.bucket object.key ||
    store.catalog.any (fun table => decide (table.namespaceName = conn.icebergNamespace) &&
      table.files.contains (object.bucket, object.key))

/-- What belongs to a connection, in each of the places that a wipe clears. -/
@[ext]
structure Belongings where
  objects : List S3Object
  tables : List CatalogTable
  watermarks : List WatermarkRow
  chunkState : List ChunkRecord

def belongings (store : Store) (conn : Connection) : Belongings :=
  { objects := store.objects.filter (owns store conn)
    tables := store.catalog.filter (fun table => decide (table.namespaceName = conn.icebergNamespace))
    watermarks := store.watermarks.filter (fun row => decide (row.connectionId = conn.id))
    chunkState := store.chunkState.filter (fun record => decide (record.connectionId = conn.id)) }

/-- The wipe of `conn` gets to the object.  It goes by the bucket and the prefix,
and knows nothing of tables. -/
def Deleted (answers : Answers) (conn : Connection) (object : S3Object) : Prop :=
  Store.wipes conn object.bucket object.key = true ∧
    (object.bucket, object.key) ∉ answers.undeletedObjects

/-- The other connection has another bucket, or nothing is deleted; and no file of
its tables is in the folders that are deleted.  The second part is for tables that
were written when the connection had another bucket. -/
structure Apart (answers : Answers) (store : Store) (conn other : Connection) : Prop where
  bucket : other.lakeBucket = conn.lakeBucket -> forall object, object ∈ store.objects ->
    ¬ Deleted answers conn object
  files : forall table, table ∈ store.catalog -> table.namespaceName = other.icebergNamespace ->
    forall object, object ∈ store.objects -> (object.bucket, object.key) ∈ table.files ->
      ¬ Deleted answers conn object

variable {answers : Answers} {store after : Store} {conn other : Connection} {c : Int}

theorem filter_filter_eq_iff {α : Type} (kept owned : α -> Bool) (rows : List α) :
    (rows.filter kept).filter owned = rows.filter owned ↔
      forall row, row ∈ rows -> owned row = true -> kept row = true := by
  constructor
  · intro same row member mine
    have listed : row ∈ (rows.filter kept).filter owned := by
      rw [same]
      exact List.mem_filter.mpr ⟨member, mine⟩
    exact (List.mem_filter.mp (List.mem_filter.mp listed).1).2
  · intro spared
    rw [List.filter_filter]
    refine List.filter_congr (fun row member => ?_)
    cases mine : owned row with
    | false => rfl
    | true =>
        rw [spared row member mine]
        rfl

/-- Folders of two connections only meet in a bucket that they share. -/
theorem wipes_iff_of_wipes {bucket key : String} (covered : Store.wipes conn bucket key = true) :
    Store.wipes other bucket key = true ↔ other.lakeBucket = conn.lakeBucket := by
  unfold Store.wipes at covered ⊢
  rcases Bool.and_eq_true_iff.mp covered with ⟨here, folder⟩
  rw [folder, Bool.and_true, beq_iff_eq, beq_iff_eq.mp here]
  exact eq_comm

theorem owns_iff {object : S3Object} :
    owns store conn object = true ↔ Store.wipes conn object.bucket object.key = true ∨
      Exists fun table : CatalogTable => table ∈ store.catalog ∧
        table.namespaceName = conn.icebergNamespace ∧ (object.bucket, object.key) ∈ table.files := by
  simp [owns]

theorem apart_iff : Apart answers store conn other ↔
    forall object, object ∈ store.objects -> owns store other object = true -> ¬ Deleted answers conn object := by
  constructor
  · rintro ⟨bucket, files⟩ object member mine deleted
    rcases owns_iff.mp mine with folder | ⟨table, listed, named, file⟩
    · exact bucket ((wipes_iff_of_wipes deleted.1).mp folder) object member deleted
    · exact files table listed named object member file deleted
  · intro spared
    refine ⟨fun shared object member deleted => ?_, fun table listed named object member file => ?_⟩
    · exact spared object member (owns_iff.mpr (Or.inl ((wipes_iff_of_wipes deleted.1).mpr shared))) deleted
    · exact spared object member (owns_iff.mpr (Or.inr ⟨table, listed, named, file⟩))

/-- Whoever owns an object does so by what the wipe leaves alone. -/
theorem owns_dropAllTables (different : other.icebergNamespace ≠ conn.icebergNamespace) :
    owns (store.dropAllTables conn) other = owns store other := by
  funext object
  unfold owns Store.dropAllTables
  rw [List.any_filter]
  congr 2
  funext table
  by_cases own : table.namespaceName = other.icebergNamespace
  · simp [own, different]
  · simp [own]

/-- The wipe leaves alone what belongs to another connection exactly if it is
apart from it. -/
theorem belongings_wipe_iff (found : store.getConnection c = some conn)
    (namespaces : other.icebergNamespace ≠ conn.icebergNamespace) (ids : other.id ≠ c)
    (done : wipeConnection answers c store = .ok after) :
    belongings after other = belongings store other ↔ Apart answers store conn other := by
  rcases wipeConnection_eq_ok.mp done with ⟨wiped, same, rfl⟩
  cases found.symm.trans same
  have tables : (store.catalog.filter (fun table => decide (table.namespaceName ≠ conn.icebergNamespace))).filter
      (fun table => decide (table.namespaceName = other.icebergNamespace)) =
        store.catalog.filter (fun table => decide (table.namespaceName = other.icebergNamespace)) := by
    refine (filter_filter_eq_iff _ _ _).mpr (fun table _ own => ?_)
    rw [of_decide_eq_true own]
    exact decide_eq_true namespaces
  have watermarks : (store.watermarks.filter (fun row => decide (row.connectionId ≠ c))).filter
      (fun row => decide (row.connectionId = other.id)) =
        store.watermarks.filter (fun row => decide (row.connectionId = other.id)) := by
    refine (filter_filter_eq_iff _ _ _).mpr (fun row _ own => ?_)
    rw [of_decide_eq_true own]
    exact decide_eq_true ids
  have chunkState : (store.chunkState.filter (fun record => decide (record.connectionId ≠ c))).filter
      (fun record => decide (record.connectionId = other.id)) =
        store.chunkState.filter (fun record => decide (record.connectionId = other.id)) := by
    refine (filter_filter_eq_iff _ _ _).mpr (fun record _ own => ?_)
    rw [of_decide_eq_true own]
    exact decide_eq_true ids
  have objects := filter_filter_eq_iff (fun object : S3Object =>
    !Store.wipes conn object.bucket object.key || answers.undeletedObjects.contains (object.bucket, object.key))
      (owns store other) store.objects
  have owned := @owns_dropAllTables store conn other namespaces
  rw [apart_iff]
  constructor
  · intro unchanged object member mine deleted
    have kept := congrArg Belongings.objects unchanged
    change ((store.objects.filter _).filter (owns (store.dropAllTables conn) other)) = _ at kept
    rw [owned] at kept
    have spared := objects.mp kept object member mine
    simp [deleted.1, deleted.2] at spared
  · intro spared
    refine Belongings.ext ?_ tables watermarks chunkState
    change ((store.objects.filter _).filter (owns (store.dropAllTables conn) other)) = _
    rw [owned]
    refine objects.mpr (fun object member mine => ?_)
    by_contra lost
    simp only [Bool.or_eq_true, Bool.not_eq_true', not_or, Bool.not_eq_false] at lost
    refine spared object member mine ⟨lost.1, fun failed => lost.2 ?_⟩
    exact List.contains_iff_mem.mpr failed

/-- A wipe leaves every other connection its data exactly if each of them is apart
from the wiped one. -/
theorem wipe_spares_others_iff (formed : WellFormed store) (found : store.getConnection c = some conn)
    (done : wipeConnection answers c store = .ok after) :
    (forall other, other ∈ otherConnections c store -> belongings after other = belongings store other) ↔
      forall other, other ∈ otherConnections c store -> Apart answers store conn other := by
  refine forall₂_congr (fun other member => ?_)
  have ids : other.id ≠ c := of_decide_eq_true (List.mem_filter.mp member).2
  exact belongings_wipe_iff found (formed.namespace_ne found member) ids done

/-- The form of a connection. -/
def sampleBody (name bucket : String) : ConnectionIn :=
  { name := name, enabled := true, dbHost := some "db", dbPort := 5432, dbName := some name
    dbUser := some "u", dbPassword := some "p", dbSslmode := "require", awsAccessKey := some "key"
    awsSecretKey := some "secret", awsRegion := "us-east-1", lakeBucket := bucket, icebergNamespace := name }

def emptyStore : Store :=
  { connections := [], nextConnectionId := 1, selection := [], watermarks := [], chunkState := []
    tokens := [], nextTokenId := 1, users := fun _ => none, settings := fun _ => none, catalog := []
    objects := [], runs := [], nextRunId := 1 }

/-- What the second connection has synced. -/
def synced (bucket : String) (store : Store) : Store :=
  { store with
    catalog := [{ namespaceName := "billing", name := "public__invoices"
                  files := [(bucket, "curated/billing.db/public__invoices/data/1.parquet")] }]
    objects := [{ bucket := bucket, key := "curated/billing.db/public__invoices/data/1.parquet"
                  content := "rows" }] }

/-- Both connections are accepted with the bucket "lake", and the wipe of the
first deletes the files of the second. -/
theorem shared_bucket_is_wiped :
    Exists fun first : Store => Exists fun second : Store => Exists fun other : Connection =>
      Exists fun after : Store =>
        createConnection sampleAnswers (sampleBody "sales" "lake") emptyStore = .ok first ∧
          createConnection sampleAnswers (sampleBody "billing" "lake") first = .ok second ∧
          other ∈ otherConnections 1 (synced "lake" second) ∧
          wipeConnection sampleAnswers 1 (synced "lake" second) = .ok after ∧
          belongings after other ≠ belongings (synced "lake" second) other := by
  refine ⟨_, _, _, _, rfl, rfl, List.mem_singleton.mpr rfl, rfl, fun same => ?_⟩
  have objects := congrArg (fun view : Belongings => view.objects.length) same
  exact absurd objects (by decide)

/-- With a bucket of its own the second connection keeps what it has. -/
theorem own_bucket_is_spared :
    Exists fun after : Store => wipeConnection sampleAnswers 1 sampleStore = .ok after ∧
      forall other, other ∈ otherConnections 1 sampleStore ->
        belongings after other = belongings sampleStore other := by
  refine ⟨_, rfl, (wipe_spares_others_iff sampleStore_wellFormed rfl rfl).mpr (fun other member => ?_)⟩
  have billing : other = TokenScope.sampleConnection 2 "billing" := List.mem_singleton.mp member
  subst billing
  refine ⟨fun shared => absurd shared (by decide), fun table _ _ object listed _ deleted => ?_⟩
  rw [List.mem_singleton.mp listed] at deleted
  exact absurd deleted.1 (by decide)

end WipeScope
end WarehouseSync
