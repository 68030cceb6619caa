import Mathlib.Data.List.Infix
import WarehouseSync.Extract.Schema
import WarehouseSync.Load.IcebergWriter

namespace WarehouseSync
namespace CreateTable

open IcebergWriter Schema

/-!
# One catalog call after the other (`create_or_get_table`)

The helper asks three services in turn: the catalog for the table, the catalog
database for the location of its metadata, and S3 for the object at that
location.  Every one of these calls may fail with any error, and between two of
them anything may happen to the catalog entry.  So each is a step here, and a
step carries the error it fails with, if it fails.

A failing `head_object` is read as an object that is not there.
-/

universe u

variable {φ : Type u}

/-- A registered table, with the metadata object it is read from.  The catalog has
only the location, and the object may be gone. -/
structure Entry (φ : Type u) where
  location : Nat
  table : LakeTable φ

/-- The entry of one table name.  Metadata objects are numbered in the order in
which they are written, so a new one has a location of its own, and what has been
deleted is never found again. -/
structure Catalog (φ : Type u) where
  entry : Option (Entry φ)
  written : Nat
  deleted : List Nat

/-- The object of the registered table has been written.  It may have been deleted
since, which is the case that the helper looks for. -/
def Catalog.Consistent (catalog : Catalog φ) : Prop :=
  forall entry, catalog.entry = some entry -> entry.location < catalog.written

/-- An error of a service; the text is its `repr`. -/
inductive Fault where
  | noSuchTable
  | other (text : String)
deriving DecidableEq, Repr

def Fault.text : Fault -> String
  | .noSuchTable => "NoSuchTableError()"
  | .other text => text

/-- What is asked for: the columns of the source and the configured spec. -/
structure Request where
  schema : List String
  partitionBy : List PartitionBy
deriving DecidableEq, Repr

/-- Where a call is.  It remembers the error that it may have to raise again,
because the code looks the location up before it decides. -/
inductive Stage where
  | loading
  | lookingUp (text : String)
  | checking (text : String) (location : Nat)
  | dropping
  | creating
  | clashed
  | recreating
  | returned
  | raised (text : String)
deriving DecidableEq, Repr

def Stage.ended : Stage -> Bool
  | .returned => true
  | .raised _ => true
  | _ => false

/-- `load_table`, which reads the entry and then the object.  A missing object is
another error than a missing entry, and the helper tells them apart. -/
def loadTable (catalog : Catalog φ) : Option Fault -> Except Fault (Entry φ)
  | some fault => .error fault
  | none =>
      match catalog.entry with
      | none => .error .noSuchTable
      | some entry =>
          if catalog.deleted.contains entry.location = true then .error (.other "FileNotFoundError()")
          else .ok entry

/-- `_catalog_metadata_location`. -/
def catalogMetadataLocation (catalog : Catalog φ) : Option Fault -> Option Nat
  | some _ => none
  | none => catalog.entry.map Entry.location

/-- `_s3_object_exists`. -/
def s3ObjectExists (catalog : Catalog φ) (location : Nat) : Option Fault -> Bool
  | some _ => false
  | none => !catalog.deleted.contains location

/-- `_drop_catalog_entry`, which fails only if its SQL fallback fails too, and does
not say so.  The call goes on either way. -/
def dropCatalogEntry (catalog : Catalog φ) : Option Fault -> Catalog φ
  | some _ => catalog
  | none => { catalog with entry := none }

/-- `"already exists" in repr(e).lower()`. -/
def alreadyExists (text : String) : Bool :=
  decide ("already exists".toList <:+: (lower text).toList)

/-- `create_table` writes the first metadata object and then registers it.  An entry
that is there makes it raise, whoever has put it there. -/
def createTable (request : Request) (spec : List PartitionField) (catalog : Catalog φ) :
    Option Fault -> Except String (Catalog φ)
  | some fault => .error fault.text
  | none =>
      match catalog.entry with
      | some _ => .error "TableAlreadyExistsError('Table already exists')"
      | none => .ok { catalog with
          entry := some { location := catalog.written
                          table := { schema := request.schema, spec := spec, rows := [] } }
          written := catalog.written + 1 }

def afterLoad (request : Request) : Except Fault (Entry φ) -> Stage
  | .error .noSuchTable => .creating
  | .error (.other text) => .lookingUp text
  | .ok entry =>
      if desiredSignature request.partitionBy = specSignature entry.table.spec then .returned else .dropping

def afterLookup (text : String) : Option Nat -> Stage
  | none => .raised text
  | some location => .checking text location

/-- Only a table whose metadata is missing is dropped.  When the object is there the
error was something else, and it is raised again. -/
def afterCheck (text : String) (found : Bool) : Stage :=
  if found = true then .raised text else .dropping

/-- Build the spec and create the table.  What an error of `create_table` leads to
is different the second time: then it is raised. -/
def tryCreate (request : Request) (catalog : Catalog φ) (fault : Option Fault) (onError : String -> Stage) :
    Catalog φ × Stage :=
  match buildPartitionSpec request.schema 1000 request.partitionBy with
  | .error text => (catalog, .raised text)
  | .ok spec =>
      match createTable request spec catalog fault with
      | .ok created => (created, .returned)
      | .error text => (catalog, onError text)

def afterClash (text : String) : Stage :=
  if alreadyExists text = true then .clashed else .raised text

/-- The next step of a call, each of them one request to a service with the error it
may meet.  The catalog is another's as well: between two steps it may change. -/
def stepCreate (request : Request) (state : Catalog φ × Stage) (fault : Option Fault) :
    Option (Catalog φ × Stage) :=
  let catalog := state.1
  match state.2 with
  | .loading => some (catalog, afterLoad request (loadTable catalog fault))
  | .lookingUp text => some (catalog, afterLookup text (catalogMetadataLocation catalog fault))
  | .checking text location => some (catalog, afterCheck text (s3ObjectExists catalog location fault))
  | .dropping => some (dropCatalogEntry catalog fault, .creating)
  | .creating => some (tryCreate request catalog fault afterClash)
  | .clashed => some (dropCatalogEntry catalog fault, .recreating)
  | .recreating => some (tryCreate request catalog fault .raised)
  | .returned => none
  | .raised _ => none

/-- The errors that the calls of one run of the helper meet.  There is one for each
request, as the helper makes none of them twice. -/
structure Faults where
  load : Option Fault
  lookup : Option Fault
  head : Option Fault
  drop : Option Fault
  create : Option Fault
  dropAgain : Option Fault
  createAgain : Option Fault
deriving DecidableEq, Repr

def Faults.at (faults : Faults) : Stage -> Option Fault
  | .loading => faults.load
  | .lookingUp _ => faults.lookup
  | .checking _ _ => faults.head
  | .dropping => faults.drop
  | .creating => faults.create
  | .clashed => faults.dropAgain
  | .recreating => faults.createAgain
  | .returned => none
  | .raised _ => none

/-- At most this many steps, without anyone else in between.  Seven are enough for
every branch, which is proved and not assumed. -/
def carryOn (request : Request) (faults : Faults) : Nat -> Catalog φ × Stage -> Catalog φ × Stage
  | 0, state => state
  | steps + 1, state =>
      match stepCreate request state (faults.at state.2) with
      | none => state
      | some next => carryOn request faults steps next

/-- `create_or_get_table`. -/
def createOrGet (request : Request) (faults : Faults) (catalog : Catalog φ) : Catalog φ × Stage :=
  carryOn request faults 7 (catalog, .loading)

/-! ## What a step can do to the entry -/

variable {request : Request} {catalog : Catalog φ} {state next : Catalog φ × Stage} {fault : Option Fault}

/-- The step removes the catalog entry, if it does not fail.  These are the two
places where a table can be lost. -/
def Stage.drops : Stage -> Bool
  | .dropping => true
  | .clashed => true
  | _ => false

/-- A table that was just created. -/
def newEntry (request : Request) (spec : List PartitionField) (catalog : Catalog φ) : Entry φ :=
  { location := catalog.written, table := { schema := request.schema, spec := spec, rows := [] } }

theorem createTable_eq_ok {spec : List PartitionField} {created : Catalog φ}
    (done : createTable request spec catalog fault = .ok created) :
    fault = none ∧ catalog.entry = none ∧ created = { catalog with
      entry := some (newEntry request spec catalog), written := catalog.written + 1 } := by
  unfold createTable at done
  cases fault with
  | some fault => cases done
  | none =>
      simp only at done
      cases registered : catalog.entry with
      | some entry =>
          rw [registered] at done
          cases done
      | none =>
          rw [registered] at done
          cases done
          exact ⟨rfl, rfl, rfl⟩

/-- The call of `create_table` registers an empty table where there is none, or
changes nothing. -/
theorem tryCreate_cases (request : Request) (catalog : Catalog φ) (fault : Option Fault)
    (onError : String -> Stage) :
    (tryCreate request catalog fault onError).1 = catalog ∨
    (catalog.entry = none ∧ (tryCreate request catalog fault onError).2 = .returned ∧
      Exists fun spec : List PartitionField =>
        buildPartitionSpec request.schema 1000 request.partitionBy = .ok spec ∧
          (tryCreate request catalog fault onError).1 = { catalog with
            entry := some (newEntry request spec catalog), written := catalog.written + 1 }) := by
  unfold tryCreate
  cases buildPartitionSpec request.schema 1000 request.partitionBy with
  | error text => exact Or.inl rfl
  | ok spec =>
      simp only
      cases made : createTable request spec catalog fault with
      | error text => exact Or.inl rfl
      | ok created =>
          rcases createTable_eq_ok made with ⟨_, absent, same⟩
          exact Or.inr ⟨absent, rfl, spec, rfl, same⟩

theorem dropCatalogEntry_cases (catalog : Catalog φ) (fault : Option Fault) :
    dropCatalogEntry catalog fault = catalog ∨
      (fault = none ∧ dropCatalogEntry catalog fault = { catalog with entry := none }) := by
  cases fault with
  | none => exact Or.inr ⟨rfl, rfl⟩
  | some fault => exact Or.inl rfl

/-- A step leaves the catalog alone, drops the entry, or registers an empty table
where there is none. -/
theorem stepCreate_cases (taken : stepCreate request state fault = some next) :
    next.1 = state.1 ∨
    (state.2.drops = true ∧ fault = none ∧ next.1 = { state.1 with entry := none }) ∨
    (state.1.entry = none ∧ next.2 = .returned ∧ Exists fun spec : List PartitionField =>
      buildPartitionSpec request.schema 1000 request.partitionBy = .ok spec ∧
        next.1 = { state.1 with
          entry := some (newEntry request spec state.1), written := state.1.written + 1 }) := by
  rcases state with ⟨catalog, stage⟩
  cases stage with
  | loading =>
      cases taken
      exact Or.inl rfl
  | lookingUp text =>
      cases taken
      exact Or.inl rfl
  | checking text location =>
      cases taken
      exact Or.inl rfl
  | dropping =>
      cases taken
      exact (dropCatalogEntry_cases catalog fault).imp_right (fun gone => Or.inl ⟨rfl, gone⟩)
  | clashed =>
      cases taken
      exact (dropCatalogEntry_cases catalog fault).imp_right (fun gone => Or.inl ⟨rfl, gone⟩)
  | creating =>
      cases taken
      exact (tryCreate_cases request catalog fault afterClash).imp_right Or.inr
  | recreating =>
      cases taken
      exact (tryCreate_cases request catalog fault .raised).imp_right Or.inr
  | returned => cases taken
  | raised text => cases taken

/-- `create_table` says that the table exists: it does, or the error is another one
with these words.  The code looks for the words in the text of the error. -/
def Clashes (request : Request) (faults : Faults) : Prop :=
  (Exists fun spec => buildPartitionSpec request.schema 1000 request.partitionBy = .ok spec) ∧
    forall fault, faults.create = some fault -> alreadyExists fault.text = true

/-- The drop before the second `create_table` is not reached or fails.  A table that
another worker has registered meanwhile is only lost through this drop. -/
def SparedByCreate (request : Request) (faults : Faults) : Prop :=
  Clashes request faults -> faults.dropAgain.isSome = true

/-- The table is loaded; or it is not said to be missing, neither by the catalog nor
by S3; or every drop that is reached fails.  It is a condition on the answers alone,
so it can be read before the call is run. -/
def Spared (request : Request) (faults : Faults) : Prop :=
  match faults.load with
  | none => True
  | some .noSuchTable => SparedByCreate request faults
  | some (.other _) => faults.lookup.isSome = true ∨ faults.head = none ∨
      (faults.drop.isSome = true ∧ SparedByCreate request faults)

/-- The same for a table whose spec may differ from the desired one.  A table that
is loaded is dropped for its spec, so a good load no longer spares it by itself. -/
def Leaves (request : Request) (faults : Faults) (table : LakeTable φ) : Prop :=
  match faults.load with
  | none => desiredSignature request.partitionBy = specSignature table.spec ∨
      (faults.drop.isSome = true ∧ SparedByCreate request faults)
  | some _ => Spared request faults

/-- Every table registered from now on has a newer location.  It is kept by every
step, and it tells a table that was created anew from the one that was there before.
-/
def Replaced (bound : Nat) (catalog : Catalog φ) : Prop :=
  bound ≤ catalog.written ∧ forall entry, catalog.entry = some entry -> bound ≤ entry.location

theorem Replaced.step {bound : Nat} (replaced : Replaced bound state.1)
    (taken : stepCreate request state fault = some next) : Replaced bound next.1 := by
  rcases stepCreate_cases taken with same | ⟨_, _, gone⟩ | ⟨_, _, spec, _, registered⟩
  · rw [same]
    exact replaced
  · rw [gone]
    refine ⟨replaced.1, ?_⟩
    rintro entry ⟨⟩
  · rw [registered]
    refine ⟨Nat.le_succ_of_le replaced.1, ?_⟩
    rintro entry ⟨⟩
    exact replaced.1

theorem Replaced.carryOn {bound : Nat} {faults : Faults} (steps : Nat) (replaced : Replaced bound state.1) :
    Replaced bound (carryOn request faults steps state).1 := by
  induction steps generalizing state with
  | zero => exact replaced
  | succ steps ih =>
      unfold CreateTable.carryOn
      cases taken : stepCreate request state (faults.at state.2) with
      | none => exact replaced
      | some next => exact ih (replaced.step taken)

/-- A call leaves the entry alone, or what is registered afterwards is newer. -/
theorem carryOn_kept_or_replaced {faults : Faults} (steps : Nat) :
    (carryOn request faults steps state).1 = state.1 ∨
      Replaced state.1.written (carryOn request faults steps state).1 := by
  induction steps generalizing state with
  | zero => exact Or.inl rfl
  | succ steps ih =>
      unfold CreateTable.carryOn
      cases taken : stepCreate request state (faults.at state.2) with
      | none => exact Or.inl rfl
      | some next =>
          rcases stepCreate_cases taken with same | ⟨_, _, gone⟩ | ⟨_, _, spec, _, registered⟩
          · rw [← same]
            exact ih
          · refine Or.inr (Replaced.carryOn steps ?_)
            rw [gone]
            refine ⟨Nat.le_refl _, ?_⟩
            rintro entry ⟨⟩
          · refine Or.inr (Replaced.carryOn steps ?_)
            rw [registered]
            refine ⟨Nat.le_succ _, ?_⟩
            rintro entry ⟨⟩
            exact Nat.le_refl _

/-- A table that is registered again has another location. -/
theorem entry_eq_of_location (consistent : catalog.Consistent) {faults : Faults} {old new : Entry φ}
    (before : catalog.entry = some old) (after : (createOrGet request faults catalog).1.entry = some new)
    (same : old.location = new.location) : new = old := by
  rcases @carryOn_kept_or_replaced φ request (catalog, .loading) faults 7 with kept | replaced
  · have unchanged : (createOrGet request faults catalog).1 = catalog := kept
    rw [unchanged, before] at after
    exact (Option.some.inj after).symm
  · have older := consistent old before
    rw [same] at older
    exact absurd (replaced.2 new after) (Nat.not_le_of_lt older)

theorem Catalog.Consistent.step (consistent : state.1.Consistent)
    (taken : stepCreate request state fault = some next) : next.1.Consistent := by
  rcases stepCreate_cases taken with same | ⟨_, _, gone⟩ | ⟨_, _, spec, _, registered⟩
  · rw [same]
    exact consistent
  · rw [gone]
    rintro entry ⟨⟩
  · rw [registered]
    rintro entry ⟨⟩
    exact Nat.lt_succ_self _

/-- What every step preserves holds after a whole call. -/
theorem createOrGet_invariant {property : Catalog φ × Stage -> Prop} {faults : Faults}
    (preserved : forall state fault next, property state -> stepCreate request state fault = some next ->
      property next)
    (start : property (catalog, .loading)) : property (createOrGet request faults catalog) := by
  have onward : forall (steps : Nat) (state : Catalog φ × Stage), property state ->
      property (carryOn request faults steps state) := by
    intro steps
    induction steps with
    | zero => exact fun _ held => held
    | succ steps ih =>
        intro state held
        unfold CreateTable.carryOn
        cases taken : stepCreate request state (faults.at state.2) with
        | none => exact held
        | some next => exact ih next (preserved state _ next held taken)
  exact onward 7 (catalog, .loading) start

theorem Catalog.Consistent.createOrGet (consistent : catalog.Consistent) (request : Request)
    (faults : Faults) : (createOrGet request faults catalog).1.Consistent :=
  @createOrGet_invariant φ request catalog (fun state => state.1.Consistent) faults
    (fun _ _ _ held taken => held.step taken) consistent

/-- The helper deletes no object in S3. -/
theorem deleted_createOrGet (request : Request) (faults : Faults) (catalog : Catalog φ) :
    (createOrGet request faults catalog).1.deleted = catalog.deleted := by
  refine @createOrGet_invariant φ request catalog (fun state => state.1.deleted = catalog.deleted) faults ?_ rfl
  intro state fault next same taken
  rcases stepCreate_cases taken with kept | ⟨_, _, gone⟩ | ⟨_, _, spec, _, registered⟩
  · rw [kept, same]
  · rw [gone, ← same]
  · rw [registered, ← same]

theorem registered_of_tryCreate {onError : String -> Stage} (raises : forall text, onError text ≠ .returned)
    (done : (tryCreate request catalog fault onError).2 = .returned) :
    (tryCreate request catalog fault onError).1.entry.isSome = true := by
  unfold tryCreate at done ⊢
  cases built : buildPartitionSpec request.schema 1000 request.partitionBy with
  | error text =>
      rw [built] at done
      cases done
  | ok spec =>
      rw [built] at done
      cases made : createTable request spec catalog fault with
      | error text =>
          simp only [made] at done
          exact absurd done (raises text)
      | ok created =>
          rcases createTable_eq_ok made with ⟨_, _, rfl⟩
          simp [made]

theorem registered_of_stepCreate (taken : stepCreate request state fault = some next)
    (done : next.2 = .returned) : next.1.entry.isSome = true := by
  rcases state with ⟨catalog, stage⟩
  cases stage with
  | loading =>
      cases taken
      cases found : catalog.entry with
      | some entry => rfl
      | none =>
          cases fault with
          | none => simp [loadTable, found, afterLoad] at done
          | some fault => cases fault <;> cases done
  | lookingUp text =>
      cases taken
      simp only [afterLookup] at done
      split at done <;> cases done
  | checking text location =>
      cases taken
      simp only [afterCheck] at done
      split at done <;> cases done
  | dropping =>
      cases taken
      cases done
  | clashed =>
      cases taken
      cases done
  | creating =>
      cases taken
      refine registered_of_tryCreate (fun text => ?_) done
      unfold afterClash
      split <;> exact Stage.noConfusion
  | recreating =>
      cases taken
      exact registered_of_tryCreate (fun text => Stage.noConfusion) done
  | returned => cases taken
  | raised text => cases taken

/-- A call that returns has a table to return. -/
theorem registered_of_returned (request : Request) (faults : Faults) (catalog : Catalog φ)
    (done : (createOrGet request faults catalog).2 = .returned) :
    (createOrGet request faults catalog).1.entry.isSome = true := by
  refine @createOrGet_invariant φ request catalog
    (fun state => state.2 = .returned -> state.1.entry.isSome = true) faults ?_ ?_ done
  · exact fun _ _ _ _ taken => registered_of_stepCreate taken
  · rintro ⟨⟩

/-- How many steps are left at most. -/
def Stage.remaining : Stage -> Nat
  | .loading => 7
  | .lookingUp _ => 6
  | .checking _ _ => 5
  | .dropping => 4
  | .creating => 3
  | .clashed => 2
  | .recreating => 1
  | .returned => 0
  | .raised _ => 0

theorem remaining_afterLoad (request : Request) (loaded : Except Fault (Entry φ)) :
    (afterLoad request loaded).remaining < 7 := by
  unfold afterLoad
  split
  · exact Nat.lt_of_sub_eq_succ rfl
  · exact Nat.lt_succ_self 6
  · split <;> exact Nat.lt_of_sub_eq_succ rfl

theorem remaining_afterLookup (text : String) (found : Option Nat) :
    (afterLookup text found).remaining < 6 := by
  cases found with
  | none => exact Nat.zero_lt_succ 5
  | some location => exact Nat.lt_succ_self 5

theorem remaining_afterCheck (text : String) (found : Bool) : (afterCheck text found).remaining < 5 := by
  cases found with
  | false => exact Nat.lt_succ_self 4
  | true => exact Nat.zero_lt_succ 4

theorem remaining_afterClash (text : String) : (afterClash text).remaining < 3 := by
  unfold afterClash
  split
  · exact Nat.lt_succ_self 2
  · exact Nat.zero_lt_succ 2

theorem remaining_tryCreate {onError : String -> Stage} {bound : Nat}
    (later : forall text, (onError text).remaining < bound) :
    (tryCreate request catalog fault onError).2.remaining < bound := by
  have positive : 0 < bound := Nat.zero_lt_of_lt (later "")
  unfold tryCreate
  cases buildPartitionSpec request.schema 1000 request.partitionBy with
  | error text => exact positive
  | ok spec =>
      simp only
      cases createTable request spec catalog fault with
      | ok created => exact positive
      | error text => exact later text

theorem remaining_stepCreate (taken : stepCreate request state fault = some next) :
    next.2.remaining < state.2.remaining := by
  rcases state with ⟨catalog, stage⟩
  cases stage with
  | loading =>
      cases taken
      exact remaining_afterLoad request _
  | lookingUp text =>
      cases taken
      exact remaining_afterLookup text _
  | checking text location =>
      cases taken
      exact remaining_afterCheck text _
  | dropping =>
      cases taken
      exact Nat.lt_succ_self 3
  | creating =>
      cases taken
      exact remaining_tryCreate remaining_afterClash
  | clashed =>
      cases taken
      exact Nat.lt_succ_self 1
  | recreating =>
      cases taken
      exact remaining_tryCreate (fun _ => Nat.zero_lt_one)
  | returned => cases taken
  | raised text => cases taken

theorem ended_of_remaining {stage : Stage} (last : stage.remaining = 0) : stage.ended = true := by
  cases stage with
  | returned => rfl
  | raised text => rfl
  | _ => cases last

theorem carryOn_of_step {faults : Faults} {steps : Nat}
    (taken : stepCreate request state (faults.at state.2) = some next) :
    carryOn request faults (steps + 1) state = carryOn request faults steps next := by
  rw [carryOn, taken]

theorem carryOn_of_ended {faults : Faults} (steps : Nat)
    (last : stepCreate request state (faults.at state.2) = none) :
    carryOn request faults steps state = state := by
  cases steps with
  | zero => rfl
  | succ steps => rw [carryOn, last]

theorem stepCreate_eq_none : stepCreate request state fault = none ↔ state.2.ended = true := by
  rcases state with ⟨catalog, stage⟩
  cases stage <;> simp [stepCreate, Stage.ended]

theorem ended_carryOn {faults : Faults} {steps : Nat} (enough : state.2.remaining ≤ steps) :
    (carryOn request faults steps state).2.ended = true := by
  induction steps generalizing state with
  | zero => exact ended_of_remaining (Nat.le_zero.mp enough)
  | succ steps ih =>
      cases taken : stepCreate request state (faults.at state.2) with
      | none =>
          rw [carryOn_of_ended (steps + 1) taken]
          exact stepCreate_eq_none.mp taken
      | some next =>
          rw [carryOn_of_step taken]
          exact ih (Nat.le_of_lt_succ (Nat.lt_of_lt_of_le (remaining_stepCreate taken) enough))

/-- The helper returns or raises, whatever fails. -/
theorem ended_createOrGet (request : Request) (faults : Faults) (catalog : Catalog φ) :
    (createOrGet request faults catalog).2.ended = true :=
  ended_carryOn (Nat.le_refl 7)

/-! ## When the entry survives a call -/

section Registered

variable {entry : Entry φ} {faults : Faults}

/-- What `create_table` says of a registered table. -/
def clashText (fault : Option Fault) : String :=
  match fault with
  | some fault => fault.text
  | none => "TableAlreadyExistsError('Table already exists')"

theorem alreadyExists_clashText : alreadyExists (clashText none) = true := by
  refine decide_eq_true ⟨"tablealreadyexistserror('table ".toList, "')".toList, ?_⟩
  simp [clashText, lower]

theorem createTable_of_registered (registered : catalog.entry = some entry) (spec : List PartitionField) :
    createTable request spec catalog fault = .error (clashText fault) := by
  unfold createTable
  cases fault with
  | some fault => rfl
  | none => simp only [registered, clashText]

theorem tryCreate_of_registered (registered : catalog.entry = some entry) {spec : List PartitionField}
    (built : buildPartitionSpec request.schema 1000 request.partitionBy = .ok spec)
    (onError : String -> Stage) :
    tryCreate request catalog fault onError = (catalog, onError (clashText fault)) := by
  unfold tryCreate
  simp only [built, createTable_of_registered registered]

theorem clashes_iff {spec : List PartitionField}
    (built : buildPartitionSpec request.schema 1000 request.partitionBy = .ok spec) :
    Clashes request faults ↔ alreadyExists (clashText faults.create) = true := by
  unfold Clashes clashText
  cases faults.create with
  | none =>
      exact ⟨fun _ => alreadyExists_clashText, fun _ => ⟨⟨spec, built⟩, fun fault same => by cases same⟩⟩
  | some fault =>
      constructor
      · rintro ⟨_, every⟩
        exact every fault rfl
      · rintro clash
        refine ⟨⟨spec, built⟩, ?_⟩
        rintro other ⟨⟩
        exact clash

/-- A table that was dropped does not come back under its location. -/
theorem dropped_carryOn (consistent : catalog.Consistent) (registered : catalog.entry = some entry)
    (steps : Nat) (stage : Stage) :
    (carryOn request faults steps ({ catalog with entry := none }, stage)).1.entry ≠ some entry := by
  intro same
  have replaced : Replaced catalog.written ({ catalog with entry := none } : Catalog φ) := by
    refine ⟨Nat.le_refl _, ?_⟩
    rintro other ⟨⟩
  have newer := (@Replaced.carryOn φ request ({ catalog with entry := none }, stage) catalog.written
    faults steps replaced).2 entry same
  exact Nat.not_le_of_lt (consistent entry registered) newer

/-- From `create_table` on. -/
theorem creating_kept_iff (consistent : catalog.Consistent) (registered : catalog.entry = some entry)
    (steps : Nat) :
    (carryOn request faults (steps + 3) (catalog, .creating)).1.entry = some entry ↔
      SparedByCreate request faults := by
  have first : stepCreate request (catalog, .creating) (faults.at .creating) =
      some (tryCreate request catalog faults.create afterClash) := rfl
  rw [carryOn_of_step first]
  cases built : buildPartitionSpec request.schema 1000 request.partitionBy with
  | error text =>
      have failed : tryCreate request catalog faults.create afterClash = (catalog, .raised text) := by
        unfold tryCreate
        rw [built]
      rw [failed, carryOn_of_ended _ rfl]
      refine iff_of_true registered ?_
      rintro ⟨⟨spec, other⟩, _⟩
      rw [built] at other
      cases other
  | ok spec =>
      rw [tryCreate_of_registered registered built, afterClash, SparedByCreate, clashes_iff built]
      by_cases clash : alreadyExists (clashText faults.create) = true
      · rw [if_pos clash]
        have second : stepCreate request (catalog, .clashed) (faults.at .clashed) =
            some (dropCatalogEntry catalog faults.dropAgain, .recreating) := rfl
        rw [carryOn_of_step second]
        cases again : faults.dropAgain with
        | none =>
            refine iff_of_false (dropped_carryOn consistent registered _ _) ?_
            intro spared
            cases spared clash
        | some fault =>
            -- The drop failed, so the second creation finds the table too.
            have third : stepCreate request (catalog, .recreating) (faults.at .recreating) =
                some (catalog, .raised (clashText faults.createAgain)) :=
              congrArg some (tryCreate_of_registered registered built .raised)
            rw [dropCatalogEntry, carryOn_of_step third, carryOn_of_ended _ rfl]
            exact iff_of_true registered (fun _ => rfl)
      · rw [if_neg clash, carryOn_of_ended _ rfl]
        exact iff_of_true registered (fun contrary => absurd contrary clash)

/-- From the drop of a table that is taken for lost on. -/
theorem dropping_kept_iff (consistent : catalog.Consistent) (registered : catalog.entry = some entry)
    (steps : Nat) :
    (carryOn request faults (steps + 4) (catalog, .dropping)).1.entry = some entry ↔
      faults.drop.isSome = true ∧ SparedByCreate request faults := by
  have first : stepCreate request (catalog, .dropping) (faults.at .dropping) =
      some (dropCatalogEntry catalog faults.drop, .creating) := rfl
  rw [carryOn_of_step first]
  cases dropped : faults.drop with
  | none =>
      refine iff_of_false (dropped_carryOn consistent registered _ _) ?_
      rintro ⟨⟨⟩, _⟩
  | some fault =>
      rw [dropCatalogEntry, creating_kept_iff consistent registered]
      exact ⟨fun spared => ⟨rfl, spared⟩, And.right⟩

/-- From the lookup of the metadata location on. -/
theorem lookingUp_kept_iff (consistent : catalog.Consistent) (registered : catalog.entry = some entry)
    (alive : catalog.deleted.contains entry.location = false) (text : String) :
    (carryOn request faults 6 (catalog, .lookingUp text)).1.entry = some entry ↔
      faults.lookup.isSome = true ∨ faults.head = none ∨
        (faults.drop.isSome = true ∧ SparedByCreate request faults) := by
  have first : stepCreate request (catalog, .lookingUp text) (faults.at (.lookingUp text)) =
      some (catalog, afterLookup text (catalogMetadataLocation catalog faults.lookup)) := rfl
  rw [carryOn_of_step first]
  cases looked : faults.lookup with
  | some fault =>
      rw [catalogMetadataLocation, afterLookup, carryOn_of_ended _ rfl]
      exact iff_of_true registered (Or.inl rfl)
  | none =>
      rw [catalogMetadataLocation, registered]
      have second : stepCreate request (catalog, .checking text entry.location)
          (faults.at (.checking text entry.location)) =
          some (catalog, afterCheck text (s3ObjectExists catalog entry.location faults.head)) := rfl
      rw [Option.map_some, afterLookup, carryOn_of_step second]
      cases seen : faults.head with
      | none =>
          have found : s3ObjectExists catalog entry.location none = true := by
            rw [s3ObjectExists, alive]
            rfl
          rw [found, afterCheck, if_pos rfl, carryOn_of_ended _ rfl]
          exact iff_of_true registered (Or.inr (Or.inl rfl))
      | some fault =>
          rw [s3ObjectExists, afterCheck, if_neg (by decide), dropping_kept_iff consistent registered 0]
          simp

/-- What leaves the entry of a live table alone, whatever its spec is. -/
theorem kept_iff_leaves (consistent : catalog.Consistent) (registered : catalog.entry = some entry)
    (alive : catalog.deleted.contains entry.location = false) :
    (createOrGet request faults catalog).1.entry = some entry ↔ Leaves request faults entry.table := by
  have first : stepCreate request (catalog, .loading) (faults.at .loading) =
      some (catalog, afterLoad request (loadTable catalog faults.load)) := rfl
  rw [createOrGet, carryOn_of_step first, Leaves]
  cases loaded : faults.load with
  | none =>
      have found : loadTable catalog none = .ok entry := by
        rw [loadTable, registered]
        simp only [alive, Bool.false_eq_true, if_false]
      rw [found, afterLoad]
      by_cases same_spec : desiredSignature request.partitionBy = specSignature entry.table.spec
      · rw [if_pos same_spec, carryOn_of_ended _ rfl]
        exact iff_of_true registered (Or.inl same_spec)
      · rw [if_neg same_spec, dropping_kept_iff consistent registered 2]
        exact (or_iff_right same_spec).symm
  | some fault =>
      rw [Spared, loaded]
      cases fault with
      | noSuchTable => exact creating_kept_iff consistent registered 3
      | other text => exact lookingUp_kept_iff consistent registered alive text

/-- A call leaves the entry of a live table with the desired spec alone exactly
when nothing that it meets makes it take the table for lost. -/
theorem entry_kept_iff (consistent : catalog.Consistent) (registered : catalog.entry = some entry)
    (alive : catalog.deleted.contains entry.location = false)
    (same_spec : desiredSignature request.partitionBy = specSignature entry.table.spec) :
    (createOrGet request faults catalog).1.entry = some entry ↔ Spared request faults := by
  rw [kept_iff_leaves consistent registered alive, Leaves]
  cases loaded : faults.load with
  | none =>
      rw [Spared, loaded]
      exact iff_of_true (Or.inl same_spec) trivial
  | some fault => exact Iff.rfl

end Registered

/-- A table with a row, read from the first metadata object. -/
def liveEntry : Entry Nat :=
  { location := 0, table := { schema := ["id"], spec := [], rows := [7] } }

def liveCatalog : Catalog Nat :=
  { entry := some liveEntry, written := 1, deleted := [] }

/-- S3 throttles the load and the `head_object` after it. -/
def throttled : Faults :=
  { load := some (.other "OSError('SlowDown')"), lookup := none
    head := some (.other "ClientError('SlowDown')"), drop := none, create := none
    dropAgain := none, createAgain := none }

theorem consistent_liveCatalog : liveCatalog.Consistent := by
  rintro entry ⟨⟩
  exact Nat.zero_lt_one

/-- The live table is replaced by an empty one. -/
theorem throttling_replaces_live_table :
    liveCatalog.Consistent ∧ liveCatalog.deleted.contains liveEntry.location = false ∧
      desiredSignature [] = specSignature liveEntry.table.spec ∧
      (createOrGet { schema := ["id"], partitionBy := [] } throttled liveCatalog).1.entry =
        some { location := 1, table := { schema := ["id"], spec := [], rows := [] } } ∧
      (createOrGet { schema := ["id"], partitionBy := [] } throttled liveCatalog).1.entry ≠
        some liveEntry := by
  refine ⟨consistent_liveCatalog, rfl, rfl, rfl, ?_⟩
  intro same
  cases same

/-- If only the load fails, the call raises and the table stays. -/
theorem live_table_kept_when_head_object_answers :
    (createOrGet { schema := ["id"], partitionBy := [] } { throttled with head := none } liveCatalog).1.entry =
      some liveEntry :=
  (entry_kept_iff consistent_liveCatalog rfl rfl rfl).mpr (Or.inr (Or.inl rfl))

def Faults.none : Faults :=
  { load := Option.none, lookup := Option.none, head := Option.none, drop := Option.none
    create := Option.none, dropAgain := Option.none, createAgain := Option.none }

theorem tryCreate_of_absent (absent : catalog.entry = none) (onError : String -> Stage) :
    (tryCreate request catalog none onError).1.entry.map Entry.table =
      (IcebergWriter.createTable request.schema request.partitionBy : Created φ).catalog := by
  unfold tryCreate IcebergWriter.createTable
  cases buildPartitionSpec request.schema 1000 request.partitionBy with
  | error text => simp only [absent, Option.map_none]
  | ok spec => simp only [createTable, absent, Option.map_some]

theorem carryOn_creating_of_absent (absent : catalog.entry = none) (steps : Nat) :
    (carryOn request .none (steps + 1) (catalog, .creating)).1.entry.map Entry.table =
      (IcebergWriter.createTable request.schema request.partitionBy : Created φ).catalog := by
  have first : stepCreate request (catalog, .creating) (Faults.none.at .creating) =
      some (tryCreate request catalog none afterClash) := rfl
  rw [carryOn_of_step first, carryOn_of_ended, tryCreate_of_absent absent]
  rw [stepCreate_eq_none]
  unfold tryCreate
  cases buildPartitionSpec request.schema 1000 request.partitionBy with
  | error text => rfl
  | ok spec => simp only [createTable, absent, Stage.ended]

/-- Taken together the steps do what the helper does in one step when nothing fails. -/
theorem createOrGet_none (alive : forall entry, catalog.entry = some entry ->
      catalog.deleted.contains entry.location = false) :
    (createOrGet request .none catalog).1.entry.map Entry.table =
      (createOrGetTable request.schema request.partitionBy none (catalog.entry.map Entry.table)).catalog := by
  have first : stepCreate request (catalog, .loading) (Faults.none.at .loading) =
      some (catalog, afterLoad request (loadTable catalog none)) := rfl
  rw [createOrGet, carryOn_of_step first]
  cases registered : catalog.entry with
  | none =>
      have loaded : loadTable catalog none = .error .noSuchTable := by rw [loadTable, registered]
      rw [loaded, afterLoad]
      exact carryOn_creating_of_absent registered 5
  | some entry =>
      have loaded : loadTable catalog none = .ok entry := by
        rw [loadTable, registered]
        simp only [alive entry registered, Bool.false_eq_true, if_false]
      rw [loaded, afterLoad, Option.map_some, createOrGetTable]
      by_cases same_spec : desiredSignature request.partitionBy = specSignature entry.table.spec
      · rw [if_pos same_spec, if_pos same_spec, carryOn_of_ended _ rfl, registered, Option.map_some]
      · have second : stepCreate request (catalog, .dropping) (Faults.none.at .dropping) =
            some ({ catalog with entry := none }, .creating) := rfl
        rw [if_neg same_spec, if_neg same_spec, carryOn_of_step second]
        exact carryOn_creating_of_absent rfl 4

end CreateTable
end WarehouseSync
