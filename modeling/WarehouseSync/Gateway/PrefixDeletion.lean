import WarehouseSync.Gateway.ConfigStore
import WarehouseSync.Library.CursorScans
import WarehouseSync.Library.Transition
import Mathlib.Data.String.Basic

namespace WarehouseSync
namespace PrefixDeletion

open CursorScans Transition

/-!
# Deleting the folders of a lake (`common/s3.py`)

`delete_prefix` lists the keys under a prefix page by page, and deletes them in
batches of a thousand while it lists.  Whoever else writes to the bucket may do
so between any two calls.  What S3 answers about single keys of a batch is not
looked at.
-/

inductive Outcome where
  | returned (total : Nat)
  | raised
deriving DecidableEq, Repr

/-- The bucket by its keys, and the variables of the loop.  Of the scan the program
knows where it is; `failed` are the keys that S3 has answered an error for, which
the program does not look at. -/
structure State where
  keys : Finset String
  scan : Scan String
  page : List String
  batch : List String
  requests : List (List String)
  failed : List String
  total : Nat
  outcome : Option Outcome

def begin (keys : Finset String) : State :=
  { keys := keys, scan := start, page := [], batch := [], requests := [], failed := [], total := 0, outcome := none }

/-- The keys that were sent for deletion. -/
def State.sent (state : State) : List String :=
  state.requests.flatten

def under (folder key : String) : Bool :=
  folder.toList.isPrefixOf key.toList

def batchSize : Nat := 1000

/-- `delete_objects`, with the keys that it answers errors for.  They stay in the
bucket, and are counted like the others. -/
def State.deleteObjects (state : State) (errors : List String) : State :=
  { state with
    keys := state.keys.filter (fun key => key ∉ state.batch ∨ key ∈ errors)
    requests := state.requests ++ [state.batch]
    failed := state.failed ++ state.batch.filter (fun key => key ∈ errors)
    total := state.total + state.batch.length
    batch := [] }

/-- A step of the call or of others who write to the bucket.  The size of a page is
up to S3, and need not be the greatest. -/
inductive Event where
  /-- a page of so many keys -/
  | list (size : Nat)
  | object (errors : List String)
  | finish (errors : List String)
  | raise
  /-- what others do -/
  | put (key : String)
  | remove (key : String)
deriving DecidableEq, Repr

def State.inFolder (folder : String) (state : State) : Finset String :=
  state.keys.filter (fun key => under folder key = true)

/-- The next page of `list_objects_v2`.  It shows the keys as they are now, after
the last key of the page before. -/
def State.list (folder : String) (state : State) (size : Nat) : State :=
  { state with
    scan := state.scan.next (state.inFolder folder) size
    page := CursorScans.page (state.inFolder folder) state.scan.cursor size }

/-- The object is appended to the batch, which is deleted when it is full.  So a
request goes out in the middle of a page. -/
def State.loop (state : State) (key : String) (rest : List String) (errors : List String) : State :=
  if batchSize ≤ (state.batch ++ [key]).length then
    { state with batch := state.batch ++ [key], page := rest }.deleteObjects errors
  else { state with batch := state.batch ++ [key], page := rest }

/-- After the last page: what is left in the batch is deleted too. -/
def State.flush (state : State) (errors : List String) : State :=
  if state.batch = [] then state else state.deleteObjects errors

def State.leave (state : State) (outcome : Outcome) : State :=
  { state with outcome := some outcome }

/-- One step.  The call may raise at any time, and what it has deleted by then is
deleted. -/
def step (folder : String) (state : State) : Event -> Option State
  | .list size =>
      if state.outcome = none ∧ state.page = [] ∧ state.scan.finished = false ∧ 0 < size then
        some (state.list folder size)
      else none
  | .object errors =>
      match state.outcome, state.page with
      | none, key :: rest => some (state.loop key rest errors)
      | _, _ => none
  | .finish errors =>
      if state.outcome = none ∧ state.page = [] ∧ state.scan.finished = true then
        some ((state.flush errors).leave (.returned (state.flush errors).total))
      else none
  | .raise => if state.outcome = none then some (state.leave .raised) else none
  | .put key => some { state with keys := insert key state.keys }
  | .remove key => some { state with keys := state.keys.erase key }

/-! ## What a step does -/

/-- Everything a step can do, with its guards.  Whether a key fills the batch makes
two cases of one step. -/
inductive Effect (folder : String) (state : State) : Event -> State -> Prop
  | list {size : Nat} (running : state.outcome = none) (looped : state.page = []) :
      Effect folder state (.list size) (state.list folder size)
  | appended {key : String} {rest errors : List String} (running : state.outcome = none)
      (listed : state.page = key :: rest) (small : (state.batch ++ [key]).length < batchSize) :
      Effect folder state (.object errors) { state with batch := state.batch ++ [key], page := rest }
  | deleted {key : String} {rest errors : List String} (running : state.outcome = none)
      (listed : state.page = key :: rest) (full : batchSize ≤ (state.batch ++ [key]).length) :
      Effect folder state (.object errors)
        ({ state with batch := state.batch ++ [key], page := rest }.deleteObjects errors)
  | finished {errors : List String} (running : state.outcome = none) (looped : state.page = [])
      (ended : state.scan.finished = true) :
      Effect folder state (.finish errors) ((state.flush errors).leave (.returned (state.flush errors).total))
  | raised (running : state.outcome = none) : Effect folder state .raise (state.leave .raised)
  | put {key : String} : Effect folder state (.put key) { state with keys := insert key state.keys }
  | remove {key : String} : Effect folder state (.remove key) { state with keys := state.keys.erase key }

variable {folder : String} {state next : State} {event : Event}

theorem effect_of_step (taken : step folder state event = some next) : Effect folder state event next := by
  cases event with
  | list size =>
      simp only [step] at taken
      split at taken
      · rename_i allowed
        cases taken
        exact Effect.list allowed.1 allowed.2.1
      · cases taken
  | object errors =>
      simp only [step] at taken
      split at taken
      · rename_i key rest running listed
        cases taken
        unfold State.loop
        split
        · rename_i full
          exact Effect.deleted running listed full
        · rename_i small
          exact Effect.appended running listed (not_le.mp small)
      · cases taken
  | finish errors =>
      simp only [step] at taken
      split at taken
      · rename_i allowed
        cases taken
        exact Effect.finished allowed.1 allowed.2.1 allowed.2.2
      · cases taken
  | raise =>
      simp only [step] at taken
      split at taken
      · rename_i running
        cases taken
        exact Effect.raised running
      · cases taken
  | put key =>
      cases taken
      exact Effect.put
  | remove key =>
      cases taken
      exact Effect.remove

variable {key : String}

/-- Nobody else writes to the bucket. -/
def Quiet (events : List Event) : Prop :=
  forall key, Event.put key ∉ events ∧ Event.remove key ∉ events

def State.left (folder : String) (state : State) : Nat :=
  (remaining (state.inFolder folder) state.scan.cursor).card

/-- What there is still to do.  It gets smaller with every step of the call while
nobody else writes, which is how it is shown to return. -/
def State.potential (folder : String) (state : State) : Nat :=
  state.page.length + if state.scan.finished = true then 0 else 1 + 2 * state.left folder

theorem keys_loop (state : State) (key : String) (rest errors : List String) :
    (state.loop key rest errors).keys ⊆ state.keys := by
  unfold State.loop
  split
  · exact Finset.filter_subset _ _
  · exact Finset.Subset.refl _

theorem loop_eq (state : State) (key : String) (rest errors : List String) :
    (state.loop key rest errors).page = rest ∧ (state.loop key rest errors).scan = state.scan ∧
      (state.loop key rest errors).outcome = state.outcome := by
  unfold State.loop
  split
  · exact ⟨rfl, rfl, rfl⟩
  · exact ⟨rfl, rfl, rfl⟩

theorem potential_loop {rest : List String} (listed : state.page = key :: rest) (errors : List String) :
    (state.loop key rest errors).potential folder < state.potential folder := by
  rcases loop_eq state key rest errors with ⟨page, scan, _⟩
  have fewer : (state.loop key rest errors).left folder ≤ state.left folder := by
    unfold State.left
    rw [scan]
    apply Finset.card_le_card
    exact remaining_mono (Finset.filter_subset_filter _ (keys_loop state key rest errors)) _
  unfold State.potential
  rw [page, scan, listed, List.length_cons]
  split
  · omega
  · omega

theorem potential_list (looped : state.page = []) (unfinished : state.scan.finished = false) :
    (state.list folder 1000).potential folder < state.potential folder := by
  have fewer : (state.list folder 1000).left folder + (state.list folder 1000).page.length ≤ state.left folder :=
    card_remaining_next state.scan (state.inFolder folder) 1000
  unfold State.potential
  rw [looped, unfinished, if_neg Bool.false_ne_true, List.length_nil]
  cases more : truncated (state.inFolder folder) state.scan.cursor 1000 with
  | false =>
      have last : (state.list folder 1000).scan.finished = true := congrArg (!·) more
      rw [if_pos last]
      omega
  | true =>
      have further : (state.list folder 1000).scan.finished = false := congrArg (!·) more
      have full : (state.list folder 1000).page.length = 1000 := length_page_of_truncated more
      rw [further, if_neg Bool.false_ne_true]
      omega

theorem Quiet.cons {own : Event} {events : List Event} (quiet : Quiet events)
    (mine : forall key, own ≠ .put key ∧ own ≠ .remove key) : Quiet (own :: events) := by
  intro key
  constructor
  · rintro (_ | ⟨_, later⟩)
    · exact (mine key).1 rfl
    · exact (quiet key).1 later
  · rintro (_ | ⟨_, later⟩)
    · exact (mine key).2 rfl
    · exact (quiet key).2 later

/-- The call can return by its own steps. -/
def Returns (folder : String) (state : State) : Prop :=
  Exists fun events : List Event => Exists fun last : State => Exists fun total : Nat =>
    Quiet events ∧ run (step folder) state events = some last ∧ last.outcome = some (.returned total)

theorem Returns.of_step {own : Event} (taken : step folder state own = some next)
    (mine : forall key, own ≠ .put key ∧ own ≠ .remove key) (later : Returns folder next) : Returns folder state := by
  rcases later with ⟨events, last, total, quiet, reached, returned⟩
  exact ⟨own :: events, last, total, quiet.cons mine, run_cons_eq_some.mpr ⟨next, taken, reached⟩, returned⟩

theorem returns_of_running (bound : Nat) (running : state.outcome = none)
    (enough : state.potential folder < bound) : Returns folder state := by
  induction bound generalizing state with
  | zero => exact absurd enough (Nat.not_lt_zero _)
  | succ bound ih =>
      cases listed : state.page with
      | cons key rest =>
          have taken : step folder state (.object []) = some (state.loop key rest []) := by
            simp only [step, running, listed]
          have less : (state.loop key rest []).potential folder < state.potential folder := potential_loop listed []
          refine Returns.of_step taken (fun key => ⟨Event.noConfusion, Event.noConfusion⟩) (ih ?_ (by omega))
          exact (loop_eq state key rest []).2.2.trans running
      | nil =>
          cases ended : state.scan.finished with
          | true =>
              have taken : step folder state (.finish []) =
                  some ((state.flush []).leave (.returned (state.flush []).total)) := if_pos ⟨running, listed, ended⟩
              refine Returns.of_step taken (fun key => ⟨Event.noConfusion, Event.noConfusion⟩) ?_
              exact ⟨[], _, _, fun key => ⟨List.not_mem_nil, List.not_mem_nil⟩, rfl, rfl⟩
          | false =>
              have less : (state.list folder 1000).potential folder < state.potential folder :=
                potential_list listed ended
              have taken : step folder state (.list 1000) = some (state.list folder 1000) :=
                if_pos ⟨running, listed, ended, by decide⟩
              refine Returns.of_step taken (fun key => ⟨Event.noConfusion, Event.noConfusion⟩) (ih running ?_)
              exact lt_of_lt_of_le less (Nat.le_of_lt_succ enough)

/-- Left alone, the call returns. -/
theorem returns_alone (folder : String) (keys : Finset String) : Returns folder (begin keys) :=
  returns_of_running _ rfl (Nat.lt_succ_self _)

/-- What was listed is sent, in the batch, or still to be looped over.  Every key is
listed once, so it is sent once. -/
structure Accounted (folder : String) (state : State) : Prop where
  scan : state.scan.Sound
  split : state.scan.listed = state.sent ++ state.batch ++ state.page
  total : state.total = state.sent.length
  sized : forall request, request ∈ state.requests -> request ≠ [] ∧ request.length ≤ batchSize
  inFolder : forall key, key ∈ state.scan.listed -> under folder key = true

@[simp] theorem sent_deleteObjects (state : State) (errors : List String) :
    (state.deleteObjects errors).sent = state.sent ++ state.batch := by
  change (state.requests ++ [state.batch]).flatten = _
  rw [List.flatten_append, List.flatten_singleton]
  rfl

theorem Accounted.deleteObjects (accounted : Accounted folder state) (nonempty : state.batch ≠ [])
    (bounded : state.batch.length ≤ batchSize) (errors : List String) :
    Accounted folder (state.deleteObjects errors) where
  scan := accounted.scan
  split := by
    rw [sent_deleteObjects]
    change state.scan.listed = state.sent ++ state.batch ++ [] ++ state.page
    rw [List.append_nil]
    exact accounted.split
  total := by
    rw [sent_deleteObjects, List.length_append, ← accounted.total]
    rfl
  sized := by
    intro request member
    rcases List.mem_append.mp member with before | new
    · exact accounted.sized request before
    · rw [List.mem_singleton.mp new]
      exact ⟨nonempty, bounded⟩
  inFolder := accounted.inFolder

theorem Accounted.append {key : String} {rest : List String} (accounted : Accounted folder state)
    (listed : state.page = key :: rest) :
    Accounted folder { state with batch := state.batch ++ [key], page := rest } where
  scan := accounted.scan
  split := by
    have split := accounted.split
    rw [listed] at split
    change state.scan.listed = state.sent ++ (state.batch ++ [key]) ++ rest
    rw [split]
    simp
  total := accounted.total
  sized := accounted.sized
  inFolder := accounted.inFolder

theorem Accounted.list (accounted : Accounted folder state) (looped : state.page = []) (size : Nat) :
    Accounted folder (state.list folder size) where
  scan := accounted.scan.next _ size
  split := by
    have split := accounted.split
    rw [looped, List.append_nil] at split
    exact congrArg (fun listed => listed ++ CursorScans.page _ state.scan.cursor size) split
  total := accounted.total
  sized := accounted.sized
  inFolder := by
    intro key member
    rcases List.mem_append.mp member with before | new
    · exact accounted.inFolder key before
    · exact (Finset.mem_filter.mp (mem_of_mem_page new).1).2

/-- The batch is never full between two steps, and a call that returns has nothing
left to do. -/
structure Sound (folder : String) (state : State) : Prop where
  accounted : Accounted folder state
  small : state.batch.length < batchSize
  returned : forall {total : Nat}, state.outcome = some (.returned total) ->
    total = state.total ∧ state.batch = [] ∧ state.page = [] ∧ state.scan.finished = true

theorem batchSize_pos : ([] : List String).length < batchSize := by decide

theorem sound_begin (folder : String) (keys : Finset String) : Sound folder (begin keys) where
  accounted :=
    { scan := sound_start
      split := rfl
      total := rfl
      sized := fun _ none => absurd none List.not_mem_nil
      inFolder := fun _ none => absurd none List.not_mem_nil }
  small := batchSize_pos
  returned := fun impossible => by cases impossible

theorem Sound.flush (sound : Sound folder state) (errors : List String) :
    Accounted folder (state.flush errors) ∧ (state.flush errors).batch = [] := by
  unfold State.flush
  split
  · rename_i empty
    exact ⟨sound.accounted, empty⟩
  · rename_i nonempty
    exact ⟨sound.accounted.deleteObjects nonempty (le_of_lt sound.small) errors, rfl⟩

theorem Accounted.leave (accounted : Accounted folder state) (outcome : Outcome) :
    Accounted folder (state.leave outcome) :=
  ⟨accounted.scan, accounted.split, accounted.total, accounted.sized, accounted.inFolder⟩

@[simp] theorem page_flush (state : State) (errors : List String) : (state.flush errors).page = state.page := by
  unfold State.flush
  split
  · rfl
  · rfl

@[simp] theorem scan_flush (state : State) (errors : List String) : (state.flush errors).scan = state.scan := by
  unfold State.flush
  split
  · rfl
  · rfl

theorem Sound.preserved (sound : Sound folder state) (taken : step folder state event = some next) :
    Sound folder next := by
  have unreturned (running : state.outcome = none) {total : Nat} (same : state.outcome = some (.returned total)) :
      False := by
    rw [running] at same
    cases same
  cases effect_of_step taken with
  | list running looped =>
      exact ⟨sound.accounted.list looped _, sound.small, fun same => (unreturned running same).elim⟩
  | appended running listed small =>
      exact ⟨sound.accounted.append listed, small, fun same => (unreturned running same).elim⟩
  | @deleted key rest errors running listed full =>
      have bounded : (state.batch ++ [key]).length ≤ batchSize := by
        have small := sound.small
        simp only [List.length_append, List.length_singleton]
        omega
      have appended := sound.accounted.append listed
      refine ⟨appended.deleteObjects (List.append_ne_nil_of_right_ne_nil _ (List.cons_ne_nil _ _)) bounded errors,
        batchSize_pos, fun same => (unreturned running same).elim⟩
  | @finished errors running looped ended =>
      rcases sound.flush errors with ⟨accounted, empty⟩
      refine ⟨accounted.leave _, ?_, ?_⟩
      · change (state.flush errors).batch.length < batchSize
        rw [empty]
        exact batchSize_pos
      · intro total same
        cases same
        exact ⟨rfl, empty, (page_flush state errors).trans looped,
          (congrArg Scan.finished (scan_flush state errors)).trans
          ended⟩
  | raised running => exact ⟨sound.accounted.leave _, sound.small, fun impossible => by cases impossible⟩
  | put =>
      exact ⟨⟨sound.accounted.scan, sound.accounted.split, sound.accounted.total, sound.accounted.sized,
        sound.accounted.inFolder⟩, sound.small, sound.returned⟩
  | remove =>
      exact ⟨⟨sound.accounted.scan, sound.accounted.split, sound.accounted.total, sound.accounted.sized,
        sound.accounted.inFolder⟩, sound.small, sound.returned⟩

theorem sound_of_run {keys : Finset String} {events : List Event}
    (reached : run (step folder) (begin keys) events = some state) : Sound folder state :=
  run_invariant_always (fun _ _ _ holds taken => Sound.preserved holds taken) (sound_begin folder keys) reached

theorem mem_keys_deleteObjects {errors : List String} : key ∈ (state.deleteObjects errors).keys ↔
    key ∈ state.keys ∧ (key ∉ state.batch ∨ key ∈ errors) :=
  Finset.mem_filter

/-- What a step sends for deletion, and what becomes of the keys.  Whatever the step
is, the proofs about single keys only need this much of it. -/
structure View (state : State) (event : Event) (next : State) (batch errors : List String) : Prop where
  sent : next.sent = state.sent ++ batch
  failed : next.failed = state.failed ++ batch.filter (fun key => key ∈ errors)
  gone : forall key, event ≠ .put key -> key ∈ next.keys -> key ∈ state.keys ∧ (key ∉ batch ∨ key ∈ errors)
  stays : forall key, event ≠ .remove key -> key ∈ state.keys -> key ∉ batch ∨ key ∈ errors -> key ∈ next.keys

theorem view_nothing (sent : next.requests = state.requests) (failed : next.failed = state.failed)
    (keys : next.keys = state.keys) : View state event next [] [] where
  sent := by
    unfold State.sent
    rw [sent, List.append_nil]
  failed := by
    rw [failed]
    exact (List.append_nil _).symm
  gone := fun _ _ member => ⟨keys ▸ member, Or.inl List.not_mem_nil⟩
  stays := fun _ _ member _ => keys ▸ member

theorem view_deleteObjects (state : State) (event : Event) (errors : List String) :
    View state event (state.deleteObjects errors) state.batch errors where
  sent := sent_deleteObjects state errors
  failed := rfl
  gone := fun _ _ member => mem_keys_deleteObjects.mp member
  stays := fun _ _ member spared => mem_keys_deleteObjects.mpr ⟨member, spared⟩

theorem view_of_step (taken : step folder state event = some next) : Exists fun batch : List String =>
    Exists fun errors : List String => View state event next batch errors := by
  cases effect_of_step taken with
  | list running looped => exact ⟨[], [], view_nothing rfl rfl rfl⟩
  | appended running listed small => exact ⟨[], [], view_nothing rfl rfl rfl⟩
  | @deleted key rest errors running listed full =>
      have deleted := view_deleteObjects { state with batch := state.batch ++ [key], page := rest }
        (.object errors) errors
      exact ⟨state.batch ++ [key], errors, deleted.sent, deleted.failed, deleted.gone, deleted.stays⟩
  | @finished errors running looped ended =>
      by_cases empty : state.batch = []
      · have flushed : state.flush errors = state := if_pos empty
        rw [flushed]
        exact ⟨[], [], view_nothing rfl rfl rfl⟩
      · have flushed : state.flush errors = state.deleteObjects errors := if_neg empty
        rw [flushed]
        have deleted := view_deleteObjects state (.finish errors) errors
        exact ⟨state.batch, errors, deleted.sent, deleted.failed, deleted.gone, deleted.stays⟩
  | raised running => exact ⟨[], [], view_nothing rfl rfl rfl⟩
  | @put key =>
      refine ⟨[], [], (List.append_nil _).symm, (List.append_nil _).symm, ?_, ?_⟩
      · intro other different member
        rcases Finset.mem_insert.mp member with rfl | before
        · exact absurd rfl different
        · exact ⟨before, Or.inl List.not_mem_nil⟩
      · exact fun other _ member _ => Finset.mem_insert_of_mem member
  | @remove key =>
      refine ⟨[], [], (List.append_nil _).symm, (List.append_nil _).symm, ?_, ?_⟩
      · exact fun other _ member => ⟨Finset.mem_of_mem_erase member, Or.inl List.not_mem_nil⟩
      · intro other different member _
        refine Finset.mem_erase.mpr ⟨?_, member⟩
        rintro rfl
        exact different rfl

/-- What asks for nothing but the events is asked along the run. -/
theorem along_of_events {condition : Event -> Prop} {events : List Event}
    (everywhere : forall event, event ∈ events -> condition event) (state : State) :
    Along (step folder) (fun _ event => condition event) state events := by
  apply along_iff_splits.mpr
  intro first event rest middle split _
  apply everywhere
  rw [split]
  exact List.mem_append_right _ List.mem_cons_self

theorem not_event {event : Event} {events : List Event} (absent : event ∉ events) :
    forall other, other ∈ events -> other ≠ event := by
  rintro other member rfl
  exact absent member

/-- A key that others do not remove is in the bucket until it is sent, and the scan
comes to it.  It is the invariant for one key, and others may put and remove keys
beside it. -/
structure Covered (folder key : String) (state : State) : Prop where
  sound : Sound folder state
  present : key ∈ state.keys ∨ key ∈ state.sent
  meets : state.scan.Meets key

theorem Accounted.listed_of_sent (accounted : Accounted folder state) (member : key ∈ state.sent) :
    key ∈ state.scan.listed := by
  rw [accounted.split, List.append_assoc]
  exact List.mem_append_left _ member

theorem Covered.preserved (covered : Covered folder key state) (inFolder : under folder key = true)
    (unremoved : event ≠ .remove key) (taken : step folder state event = some next) : Covered folder key next where
  sound := covered.sound.preserved taken
  present := by
    rcases view_of_step taken with ⟨batch, errors, view⟩
    rw [view.sent]
    rcases covered.present with inBucket | sent
    · by_cases batched : key ∈ batch
      · exact Or.inr (List.mem_append_right _ batched)
      · exact Or.inl (view.stays key unremoved inBucket (Or.inl batched))
    · exact Or.inr (List.mem_append_left _ sent)
  meets := by
    cases effect_of_step taken with
    | list running looped =>
        refine covered.meets.next ?_ _
        rcases covered.present with inBucket | sent
        · exact Or.inr (Finset.mem_filter.mpr ⟨inBucket, inFolder⟩)
        · exact Or.inl (covered.sound.accounted.listed_of_sent sent)
    | @finished errors running looped ended =>
        change (state.flush errors).scan.Meets key
        rw [scan_flush]
        exact covered.meets
    | _ => exact covered.meets

theorem sent_of_returned {keys : Finset String} {events : List Event} {total : Nat}
    (reached : run (step folder) (begin keys) events = some state) (returned : state.outcome = some (.returned total))
    (present : key ∈ keys) (inFolder : under folder key = true) (unremoved : Event.remove key ∉ events) :
    key ∈ state.sent := by
  have covered : Covered folder key state :=
    run_invariant (fun _ _ _ holds unremoved taken => Covered.preserved holds inFolder unremoved taken)
      ⟨sound_begin folder keys, Or.inl present, meets_start key⟩ (along_of_events (not_event unremoved) _) reached
  have nothing := covered.sound.returned returned
  rcases covered.meets with listed | ⟨unfinished, _⟩
  · rw [covered.sound.accounted.split, nothing.2.1, nothing.2.2.1, List.append_nil, List.append_nil] at listed
    exact listed
  · rw [nothing.2.2.2] at unfinished
    cases unfinished

/-- The key is gone if it was deleted. -/
def Gone (key : String) (state : State) : Prop :=
  key ∈ state.sent -> key ∉ state.failed -> key ∉ state.keys

theorem Gone.preserved (gone : Gone key state) (unput : event ≠ .put key)
    (taken : step folder state event = some next) : Gone key next := by
  intro sent deleted present
  rcases view_of_step taken with ⟨batch, errors, view⟩
  rcases view.gone key unput present with ⟨before, spared⟩
  rw [view.sent, List.mem_append] at sent
  rw [view.failed, List.mem_append, List.mem_filter, decide_eq_true_eq, not_or, not_and] at deleted
  have unbatched : key ∉ batch := by
    intro batched
    exact deleted.2 batched (spared.resolve_left (not_not_intro batched))
  exact gone (sent.resolve_right unbatched) deleted.1 before

theorem gone_of_run {keys : Finset String} {events : List Event}
    (reached : run (step folder) (begin keys) events = some state) (unput : Event.put key ∉ events) :
    Gone key state :=
  run_invariant (fun _ _ _ holds unput taken => Gone.preserved holds unput taken)
    (fun none => absurd none List.not_mem_nil) (along_of_events (not_event unput) (begin keys)) reached

theorem Accounted.sent_nodup (accounted : Accounted folder state) : state.sent.Nodup := by
  have sorted := accounted.scan.sorted
  rw [accounted.split, List.append_assoc] at sorted
  exact (List.pairwise_append.mp sorted).1.imp ne_of_lt

/-- However others write meanwhile, a call that returns has sent every key under
the prefix that was there when it began and that nobody else has removed; each
key once, in requests of at most a thousand, and none of another folder.  What
S3 does not answer an error for is gone, unless it was put again.  The number
returned is that of the keys sent. -/
theorem delete_prefix_complete (folder : String) (keys : Finset String) (events : List Event) (last : State)
    (total : Nat) (reached : run (step folder) (begin keys) events = some last)
    (returned : last.outcome = some (.returned total)) :
    total = last.sent.length ∧ last.sent.Nodup ∧
      (forall request, request ∈ last.requests -> request ≠ [] ∧ request.length ≤ batchSize) ∧
      (forall key, key ∈ last.sent -> under folder key = true) ∧
      forall key, key ∈ keys -> under folder key = true -> Event.remove key ∉ events ->
        key ∈ last.sent ∧ (Event.put key ∉ events -> key ∉ last.failed -> key ∉ last.keys) := by
  have sound := sound_of_run reached
  refine ⟨(sound.returned returned).1.trans sound.accounted.total, sound.accounted.sent_nodup, sound.accounted.sized,
    fun key sent => sound.accounted.inFolder key (sound.accounted.listed_of_sent sent), ?_⟩
  intro key present inFolder unremoved
  have sent := sent_of_returned reached returned present inFolder unremoved
  exact ⟨sent, fun unput deleted => gone_of_run reached unput sent deleted⟩

def sampleKeys : Finset String :=
  {"raw/orders/0.parquet", "raw/orders/1.parquet", "curated/orders/metadata.json"}

theorem sample_order_is_sent : Exists fun events : List Event => Exists fun last : State =>
    run (step "raw/") (begin sampleKeys) events = some last ∧ "raw/orders/1.parquet" ∈ last.sent := by
  rcases returns_alone "raw/" sampleKeys with ⟨events, last, total, quiet, reached, returned⟩
  have complete := delete_prefix_complete "raw/" sampleKeys events last total reached returned
  have sent := complete.2.2.2.2 "raw/orders/1.parquet" (by decide) (by decide) (quiet _).2
  exact ⟨events, last, reached, sent.1⟩

/-! ## Nobody else writes -/

/-- The bucket has the key if it had it, and the key was not deleted.  This is an
equivalence because nobody else writes. -/
structure Exactly (folder key : String) (keys : Finset String) (state : State) : Prop where
  sound : Sound folder state
  failed : key ∈ state.failed -> key ∈ state.sent
  present : key ∈ state.keys ↔ key ∈ keys ∧ (key ∉ state.sent ∨ key ∈ state.failed)

theorem Exactly.preserved {keys : Finset String} (exactly : Exactly folder key keys state)
    (quiet : event ≠ .put key ∧ event ≠ .remove key) (taken : step folder state event = some next) :
    Exactly folder key keys next := by
  have sound := exactly.sound.preserved taken
  rcases view_of_step taken with ⟨batch, errors, view⟩
  have apart : key ∈ state.sent -> key ∉ batch := by
    intro before batched
    have once := sound.accounted.sent_nodup
    rw [view.sent] at once
    exact (List.nodup_append.mp once).2.2 key before key batched rfl
  have kept : key ∈ next.keys ↔ key ∈ state.keys ∧ (key ∉ batch ∨ key ∈ errors) :=
    ⟨view.gone key quiet.1, fun both => view.stays key quiet.2 both.1 both.2⟩
  have failed : key ∈ next.failed ↔ key ∈ state.failed ∨ (key ∈ batch ∧ key ∈ errors) := by
    rw [view.failed, List.mem_append, List.mem_filter, decide_eq_true_eq]
  have sent : key ∈ next.sent ↔ key ∈ state.sent ∨ key ∈ batch := by
    rw [view.sent, List.mem_append]
  refine ⟨sound, ?_, ?_⟩
  · rw [failed, sent]
    exact Or.imp exactly.failed And.left
  · rw [kept, exactly.present, failed, sent]
    by_cases batched : key ∈ batch
    · have unsent : key ∉ state.sent := fun before => apart before batched
      have unfailed : key ∉ state.failed := fun before => unsent (exactly.failed before)
      simp [batched, unsent, unfailed]
    · simp [batched]

theorem exactly_of_run {keys : Finset String} {events : List Event}
    (reached : run (step folder) (begin keys) events = some state) (unput : Event.put key ∉ events)
    (unremoved : Event.remove key ∉ events) : Exactly folder key keys state := by
  have quiet : forall event, event ∈ events -> event ≠ .put key ∧ event ≠ .remove key :=
    fun event member => ⟨not_event unput event member, not_event unremoved event member⟩
  refine run_invariant (fun _ _ _ holds quiet taken => Exactly.preserved holds quiet taken) ?_
    (along_of_events quiet (begin keys)) reached
  refine ⟨sound_begin folder keys, fun none => absurd none List.not_mem_nil, ?_⟩
  exact ⟨fun present => ⟨present, Or.inl List.not_mem_nil⟩, fun both => both.1⟩

/-- Whatever becomes of the call, it takes no key of another folder.  It does not
have to return for that. -/
theorem delete_prefix_confined (folder : String) (keys : Finset String) (events : List Event) (last : State)
    (key : String) (reached : run (step folder) (begin keys) events = some last)
    (elsewhere : under folder key = false) (unput : Event.put key ∉ events) (unremoved : Event.remove key ∉ events) :
    key ∈ last.keys ↔ key ∈ keys := by
  have exactly := exactly_of_run reached unput unremoved
  have unsent : key ∉ last.sent := by
    intro sent
    have inFolder := exactly.sound.accounted.inFolder key (exactly.sound.accounted.listed_of_sent sent)
    rw [elsewhere] at inFolder
    cases inFolder
  rw [exactly.present]
  exact ⟨fun both => both.1, fun present => ⟨present, Or.inl unsent⟩⟩

theorem sample_metadata_stays : Exists fun events : List Event => Exists fun last : State =>
    run (step "raw/") (begin sampleKeys) events = some last ∧ "curated/orders/metadata.json" ∈ last.keys := by
  rcases returns_alone "raw/" sampleKeys with ⟨events, last, total, quiet, reached, returned⟩
  have confined := delete_prefix_confined "raw/" sampleKeys events last "curated/orders/metadata.json" reached
    (by decide) (quiet _).1 (quiet _).2
  exact ⟨events, last, reached, confined.mpr (by decide)⟩

/-- A key that never was there is not sent. -/
theorem unsent_of_absent {keys : Finset String} {events : List Event}
    (reached : run (step folder) (begin keys) events = some state) (absent : key ∉ keys)
    (unput : Event.put key ∉ events) : key ∉ state.sent := by
  have invariant : key ∉ state.keys ∧ key ∉ state.scan.listed := by
    have start : key ∉ (begin keys).keys ∧ key ∉ (begin keys).scan.listed := ⟨absent, List.not_mem_nil⟩
    refine @run_invariant _ _ _ (fun current => key ∉ current.keys ∧ key ∉ current.scan.listed) _ ?_ _ _ _ start
      (along_of_events (not_event unput) (begin keys)) reached
    intro current event next holds unput taken
    constructor
    · intro present
      rcases view_of_step taken with ⟨batch, errors, view⟩
      exact holds.1 (view.gone key unput present).1
    · cases effect_of_step taken with
      | list running looped =>
          intro member
          rcases List.mem_append.mp member with before | new
          · exact holds.2 before
          · exact holds.1 (Finset.mem_filter.mp (mem_of_mem_page new).1).1
      | @finished errors running looped ended =>
          change key ∉ (current.flush errors).scan.listed
          rw [scan_flush]
          exact holds.2
      | _ => exact holds.2
  exact fun sent => invariant.2 ((sound_of_run reached).accounted.listed_of_sent sent)

theorem mem_sent_iff {keys : Finset String} {events : List Event} {total : Nat}
    (reached : run (step folder) (begin keys) events = some state) (returned : state.outcome = some (.returned total))
    (quiet : Quiet events) : key ∈ state.sent ↔ key ∈ keys ∧ under folder key = true := by
  constructor
  · intro sent
    have accounted := (sound_of_run reached).accounted
    refine ⟨?_, accounted.inFolder key (accounted.listed_of_sent sent)⟩
    by_contra absent
    exact unsent_of_absent reached absent (quiet key).1 sent
  · exact fun both => sent_of_returned reached returned both.1 both.2 (quiet key).2

/-- Then the bucket is left with the keys of other folders, and those of errors;
and the number returned is that of the keys that were under the prefix. -/
theorem quiet_deletion {keys : Finset String} {events : List Event} {total : Nat}
    (reached : run (step folder) (begin keys) events = some state) (returned : state.outcome = some (.returned total))
    (quiet : Quiet events) :
    (forall key, key ∈ state.keys ↔ key ∈ keys ∧ (under folder key = false ∨ key ∈ state.failed)) ∧
      total = (keys.filter (fun key => under folder key = true)).card := by
  have sound := sound_of_run reached
  constructor
  · intro key
    rw [(exactly_of_run reached (quiet key).1 (quiet key).2).present, mem_sent_iff reached returned quiet]
    refine and_congr_right (fun present => or_congr_left ?_)
    rw [not_and, Bool.not_eq_true]
    exact ⟨fun unsent => unsent present, fun elsewhere _ => elsewhere⟩
  · have sameKeys : state.sent.toFinset = keys.filter (fun key => under folder key = true) := by
      ext key
      rw [List.mem_toFinset, mem_sent_iff reached returned quiet, Finset.mem_filter]
    rw [(sound.returned returned).1, sound.accounted.total, ← sameKeys,
      List.toFinset_card_of_nodup sound.accounted.sent_nodup]

open ConfigStore

def bucketKeys (store : Store) (bucket : String) : Finset String :=
  ((store.objects.filter (fun object => object.bucket == bucket)).map S3Object.key).toFinset

theorem mem_bucketKeys {store : Store} {bucket : String} : key ∈ bucketKeys store bucket ↔
    Exists fun object : S3Object => object ∈ store.objects ∧ object.bucket = bucket ∧ object.key = key := by
  simp only [bucketKeys, List.mem_toFinset, List.mem_map, List.mem_filter, beq_iff_eq, and_assoc]

theorem wipes_eq (conn : Connection) (key : String) : Store.wipes conn conn.lakeBucket key =
    (under "raw/" key || under "curated/" key || under "gateway-results/" key) := by
  simp [Store.wipes, Store.wipedPrefixes, under, Bool.or_assoc]

theorem mem_bucketKeys_deletePrefixes (store : Store) (conn : Connection) (failed : List String) :
    key ∈ bucketKeys (store.deletePrefixes conn (failed.map (fun key => (conn.lakeBucket, key)))) conn.lakeBucket ↔
      key ∈ bucketKeys store conn.lakeBucket ∧ (Store.wipes conn conn.lakeBucket key = false ∨ key ∈ failed) := by
  rw [mem_bucketKeys, mem_bucketKeys]
  have listed (object : S3Object) (here : object.bucket = conn.lakeBucket) :
      (failed.map (fun key => (conn.lakeBucket, key))).contains (object.bucket, object.key) = true ↔
        object.key ∈ failed := by
    simp [here]
  constructor
  · rintro ⟨object, member, here, rfl⟩
    rcases List.mem_filter.mp member with ⟨before, spared⟩
    rw [Bool.or_eq_true, Bool.not_eq_true', listed object here, here] at spared
    exact ⟨⟨object, before, here, rfl⟩, spared⟩
  · rintro ⟨⟨object, before, here, rfl⟩, spared⟩
    refine ⟨object, List.mem_filter.mpr ⟨before, ?_⟩, here, rfl⟩
    rw [Bool.or_eq_true, Bool.not_eq_true', listed object here, here]
    exact spared

/-- No key is in two of the folders. -/
theorem folders_apart (key : String) :
    (under "raw/" key && under "curated/" key) = false ∧ (under "raw/" key && under "gateway-results/" key) = false ∧
      (under "curated/" key && under "gateway-results/" key) = false := by
  unfold under
  cases key.toList with
  | nil => exact ⟨rfl, rfl, rfl⟩
  | cons first rest =>
      have apart (left right : Char) (different : left ≠ right) (one two : Bool) :
          ((left == first && one) && (right == first && two)) = false := by
        by_cases same : left = first
        · subst same
          simp [different.symm]
        · simp [same]
      exact ⟨apart 'r' 'c' (by decide) _ _, apart 'r' 'g' (by decide) _ _, apart 'c' 'g' (by decide) _ _⟩

/-- A call that returns when nobody else writes.  A wipe catches a call that raises,
and loses the number of its deletions then. -/
structure Deletes (folder : String) (keys : Finset String) (events : List Event) (last : State)
    (total : Nat) : Prop where
  reached : run (step folder) (begin keys) events = some last
  returned : last.outcome = some (.returned total)
  quiet : Quiet events

theorem Deletes.mem_keys {keys : Finset String} {events : List Event} {total : Nat}
    (deletes : Deletes folder keys events state total) :
    key ∈ state.keys ↔ key ∈ keys ∧ (under folder key = false ∨ key ∈ state.failed) :=
  (quiet_deletion deletes.reached deletes.returned deletes.quiet).1 key

theorem Deletes.under_of_failed {keys : Finset String} {events : List Event} {total : Nat}
    (deletes : Deletes folder keys events state total) (failed : key ∈ state.failed) : under folder key = true := by
  have quiet := deletes.quiet key
  have sent := (exactly_of_run deletes.reached quiet.1 quiet.2).failed failed
  exact ((mem_sent_iff deletes.reached deletes.returned deletes.quiet).mp sent).2

theorem Deletes.total_eq {keys : Finset String} {events : List Event} {total : Nat}
    (deletes : Deletes folder keys events state total) :
    total = (keys.filter (fun key => under folder key = true)).card :=
  (quiet_deletion deletes.reached deletes.returned deletes.quiet).2

/-- A loop over one folder does not change another. -/
theorem Deletes.filter_other {keys : Finset String} {events : List Event} {total : Nat} {other : String}
    (deletes : Deletes folder keys events state total)
    (apart : forall key, (under folder key && under other key) = false) :
    state.keys.filter (fun key => under other key = true) = keys.filter (fun key => under other key = true) := by
  ext key
  rw [Finset.mem_filter, Finset.mem_filter, deletes.mem_keys]
  constructor
  · exact fun both => ⟨both.1.1, both.2⟩
  · rintro ⟨present, inOther⟩
    refine ⟨⟨present, Or.inl ?_⟩, inOther⟩
    have once := apart key
    rw [inOther, Bool.and_true] at once
    exact once

/-- What three deletions in a row leave, when the folders are apart and errors
are about keys of the folder only. -/
theorem spared_iff {present one two three : Prop} {raw curated results : Bool}
    (apart : (raw && curated) = false ∧ (raw && results) = false ∧ (curated && results) = false)
    (first : one -> raw = true) (second : two -> curated = true) (third : three -> results = true) :
    ((present ∧ (raw = false ∨ one)) ∧ (curated = false ∨ two)) ∧ (results = false ∨ three) ↔
      present ∧ ((raw || curated || results) = false ∨ (one ∨ two) ∨ three) := by
  cases raw with
  | true =>
      cases curated with
      | true => cases apart.1
      | false =>
          cases results with
          | true => cases apart.2.1
          | false =>
              have noTwo : ¬ two := fun error => Bool.false_ne_true (second error)
              have noThree : ¬ three := fun error => Bool.false_ne_true (third error)
              simp [noTwo, noThree]
  | false =>
      have noOne : ¬ one := fun error => Bool.false_ne_true (first error)
      cases curated with
      | true =>
          cases results with
          | true => cases apart.2.2
          | false =>
              have noThree : ¬ three := fun error => Bool.false_ne_true (third error)
              simp [noOne, noThree]
      | false =>
          have noTwo : ¬ two := fun error => Bool.false_ne_true (second error)
          simp [noOne, noTwo]

theorem card_filter_folders (keys : Finset String) :
    (keys.filter (fun key =>
      (under "raw/" key || under "curated/" key || under "gateway-results/" key) = true)).card =
      (keys.filter (fun key => under "raw/" key = true)).card +
        (keys.filter (fun key => under "curated/" key = true)).card +
          (keys.filter (fun key => under "gateway-results/" key = true)).card := by
  have twoFolders : Disjoint (keys.filter (fun key => under "raw/" key = true))
      (keys.filter (fun key => under "curated/" key = true)) := by
    refine Finset.disjoint_filter.mpr (fun key _ inRaw inCurated => ?_)
    have apart := (folders_apart key).1
    rw [inRaw, inCurated] at apart
    cases apart
  have lastFolder : Disjoint (keys.filter (fun key => under "raw/" key = true ∨ under "curated/" key = true))
      (keys.filter (fun key => under "gateway-results/" key = true)) := by
    refine Finset.disjoint_filter.mpr (fun key _ earlier inResults => ?_)
    have apart := (folders_apart key).2
    rcases earlier with inRaw | inCurated
    · rw [inRaw, inResults] at apart
      cases apart.1
    · rw [inCurated, inResults] at apart
      cases apart.2
  rw [← Finset.card_union_of_disjoint twoFolders, ← Finset.filter_or, ← Finset.card_union_of_disjoint lastFolder,
    ← Finset.filter_or]
  simp only [Bool.or_eq_true]

/-- The wipe as the endpoints see it is what the three loops do to the bucket of
the connection, one after the other, while nobody else writes to it. -/
theorem wipe_refined (store : Store) (conn : Connection) (first second third : List Event)
    (raw curated results : State) (inRaw inCurated inResults : Nat)
    (ranRaw : Deletes "raw/" (bucketKeys store conn.lakeBucket) first raw inRaw)
    (ranCurated : Deletes "curated/" raw.keys second curated inCurated)
    (ranResults : Deletes "gateway-results/" curated.keys third results inResults) :
    results.keys = bucketKeys (store.deletePrefixes conn
        ((raw.failed ++ curated.failed ++ results.failed).map (fun key => (conn.lakeBucket, key)))) conn.lakeBucket ∧
      inRaw + inCurated + inResults = ((bucketKeys store conn.lakeBucket).filter (fun key =>
        Store.wipes conn conn.lakeBucket key = true)).card := by
  constructor
  · ext key
    rw [mem_bucketKeys_deletePrefixes, ranResults.mem_keys, ranCurated.mem_keys, ranRaw.mem_keys, wipes_eq,
      List.mem_append, List.mem_append]
    exact spared_iff (folders_apart key) ranRaw.under_of_failed ranCurated.under_of_failed ranResults.under_of_failed
  · have inFolders : inCurated = ((bucketKeys store conn.lakeBucket).filter (fun key =>
        under "curated/" key = true)).card := by
      rw [ranCurated.total_eq, ranRaw.filter_other (fun key => (folders_apart key).1)]
    have inLast : inResults = ((bucketKeys store conn.lakeBucket).filter (fun key =>
        under "gateway-results/" key = true)).card := by
      rw [ranResults.total_eq, ranCurated.filter_other (fun key => (folders_apart key).2.2),
        ranRaw.filter_other (fun key => (folders_apart key).2.1)]
    rw [ranRaw.total_eq, inFolders, inLast]
    simp only [wipes_eq]
    exact (card_filter_folders _).symm

def lakeOf (object : S3Object) : Store :=
  { connections := [], nextConnectionId := 1, selection := [], watermarks := [], chunkState := [], tokens := []
    nextTokenId := 1, users := fun _ => none, settings := fun _ => none, catalog := [],
    objects := [object], runs := []
    nextRunId := 1 }

def lakeConnection : Connection :=
  { id := 1, name := "sales", enabled := true, sourceDsn := "", awsAccessKey := none, awsSecretKey := none
    awsRegion := "us-east-1", lakeBucket := "lake", icebergNamespace := "sales", syncInclude := "", syncExclude := ""
    syncObjectTypes := "TABLE", syncSchemaBlacklist := "" }

theorem deletes_alone (folder : String) (keys : Finset String) : Exists fun events : List Event =>
    Exists fun last : State => Exists fun total : Nat => Deletes folder keys events last total := by
  rcases returns_alone folder keys with ⟨events, last, total, quiet, reached, returned⟩
  exact ⟨events, last, total, reached, returned, quiet⟩

/-- Of one object in the lake, one is reported as deleted. -/
theorem one_object_wiped :
    let store := lakeOf { bucket := "lake", key := "curated/orders/metadata.json", content := "" }
    Exists fun raw : State => Exists fun curated : State => Exists fun results : State =>
      Exists fun totals : Nat × Nat × Nat => totals.1 + totals.2.1 + totals.2.2 = 1 ∧
        results.keys = bucketKeys (store.deletePrefixes lakeConnection
          ((raw.failed ++ curated.failed ++ results.failed).map (fun key => ("lake", key)))) "lake" := by
  intro store
  rcases deletes_alone "raw/" (bucketKeys store "lake") with ⟨first, raw, inRaw, ranRaw⟩
  rcases deletes_alone "curated/" raw.keys with ⟨second, curated, inCurated, ranCurated⟩
  rcases deletes_alone "gateway-results/" curated.keys with ⟨third, results, inResults, ranResults⟩
  have refined := wipe_refined store lakeConnection first second third raw curated results inRaw inCurated inResults
    ranRaw ranCurated ranResults
  have one : ((bucketKeys store "lake").filter (fun key =>
      Store.wipes lakeConnection "lake" key = true)).card = 1 := by
    decide
  exact ⟨raw, curated, results, (inRaw, inCurated, inResults), refined.2.trans one, refined.1⟩

end PrefixDeletion
end WarehouseSync
