import WarehouseSync.Orchestration.TableSync

namespace WarehouseSync
namespace TableSync

open KeyedRows Transition

/-!
# Bootstrap and ticks on one table

A merged batch replaces rows by id and a created table is empty, so neither can
bring a second row of an id.  Committing a chunk appends its rows as they are:
the ids of the lake stay unique exactly as long as no chunk brings an id that is
there already, which a tick may have merged since the chunk was planned.
-/

universe u

variable {δ : Type u}

/-- A chunk is committed to a lake that has none of its ids.  It is a condition on
the state before a commit, and all that can go wrong: a merge never repeats an id.
-/
def CommitsFresh (world : World δ) : Event δ -> Prop
  | .boot (.copy index .commit) => forall copies copy rows, world.boot = .copying copies ->
      copies[index]? = some copy -> copy.state = .extracted rows ->
        forall version, version ∈ rows -> forall other, other ∈ world.lake -> other.id ≠ version.id
  | _ => True

/-- Ids are unique at the source, and so in every chunk that was read.  Two chunks
may still have an id in common, when its row has moved between their reads. -/
structure ReadOnce (world : World δ) : Prop where
  source : UniqueKeys Version.key world.source
  copies : forall copies, world.boot = .copying copies -> forall copy, copy ∈ copies ->
    forall rows, copy.state = .extracted rows -> UniqueKeys Version.key rows

variable {pipe : Pipeline δ} {world after : World δ}

theorem ReadOnce.congr (inv : ReadOnce world) (source : after.source = world.source)
    (boot : after.boot = world.boot) : ReadOnce after := by
  refine ⟨source ▸ inv.source, ?_⟩
  rw [boot]
  exact inv.copies

theorem ReadOnce.elsewhere (inv : ReadOnce world) (source : after.source = world.source)
    (boot : forall copies, after.boot ≠ .copying copies) : ReadOnce after :=
  ⟨source ▸ inv.source, fun copies copying => absurd copying (boot copies)⟩

theorem ReadOnce.stepCopy (inv : ReadOnce world) {copies : List (ChunkCopy δ)} {index : Nat}
    {copy : ChunkCopy δ} {event : CopyEvent} {next : Option (List (Version δ)) × ChunkCopy δ}
    (copying : world.boot = .copying copies)
    (taken : TableSync.stepCopy pipe world copy event = some next) :
    ReadOnce { world with table := next.1, boot := .copying (copies.set index next.2) } := by
  refine ⟨inv.source, ?_⟩
  rintro others ⟨⟩ other member rows extracted
  rcases List.mem_or_eq_of_mem_set member with old | rfl
  · exact inv.copies copies copying other old rows extracted
  · rcases stepCopy_cases taken with rfl | ⟨_, _, _, _, _, rfl⟩ | rfl | rfl
    · cases extracted
      exact inv.source.sublist List.filter_sublist
    · cases extracted
    · cases extracted
    · cases extracted

theorem ReadOnce.stepBoot (inv : ReadOnce world) {event : BootEvent}
    (taken : TableSync.stepBoot pipe world event = some after) : ReadOnce after := by
  rcases stepBoot_cases taken with ⟨_, rfl⟩ | ⟨found, _, rfl⟩ | ⟨chunks, _, rfl⟩ |
    ⟨copies, index, copy, copyEvent, next, _, copying, _, stepped, rfl⟩ | ⟨greatest, _, _, rfl⟩ |
    ⟨greatest, _, _, rfl⟩ | ⟨_, rfl⟩
  · exact inv.elsewhere rfl (by rintro copies ⟨⟩)
  · rcases createTable_eq world found with ⟨table, _, created⟩
    rw [created]
    exact inv.elsewhere rfl (by rintro copies ⟨⟩)
  · refine ⟨inv.source, ?_⟩
    rintro copies ⟨⟩ copy member rows extracted
    rcases List.mem_map.mp member with ⟨chunk, _, rfl⟩
    cases extracted
  · exact inv.stepCopy copying stepped
  · exact inv.elsewhere rfl (by rintro copies ⟨⟩)
  · exact inv.elsewhere rfl (by rintro copies ⟨⟩)
  · exact inv.elsewhere rfl (by rintro copies ⟨⟩)

theorem ReadOnce.step (inv : ReadOnce world) {event : Event δ}
    (taken : TableSync.step pipe world event = some after) : ReadOnce after := by
  cases event with
  | source event =>
      rcases stepSource_cases taken with ⟨_, _, _, rfl⟩ | ⟨id, updatedAt, data, _, rfl⟩ | ⟨_, _, rfl⟩
      · exact inv.congr rfl rfl
      · have unique := uniqueKeys_write inv.source
          { id := id, updatedAt := updatedAt, commit := world.commits, data := data }
        exact ⟨unique, inv.copies⟩
      · exact ⟨inv.source.sublist List.filter_sublist, inv.copies⟩
  | boot event => exact inv.stepBoot taken
  | beginTick =>
      cases taken
      exact inv.congr rfl rfl
  | tick index event =>
      rcases Option.bind_eq_some_iff.mp taken with ⟨tick, _, stepped⟩
      rcases Option.map_eq_some_iff.mp stepped with ⟨next, moved, rfl⟩
      rcases stepTick_cases moved with ⟨found, _, rfl⟩ | ⟨_, rfl⟩ | ⟨_, _, _, rfl⟩ |
        ⟨_, _, _, _, _, _, _, rfl⟩ | ⟨_, _, _, rfl⟩ | rfl
      · rcases createTable_eq world found with ⟨table, _, created⟩
        simp only [created]
        exact inv.congr rfl rfl
      · exact inv.congr rfl rfl
      · exact inv.congr rfl rfl
      · exact inv.congr rfl rfl
      · exact inv.congr rfl rfl
      · exact inv.congr rfl rfl

theorem uniqueKeys_createTable (unique : UniqueKeys Version.key world.lake) (found : Bool) :
    UniqueKeys Version.key (world.createTable found).lake := by
  rcases createTable_eq world found with ⟨table, rfl | rfl, created⟩
  · rw [created]
    exact unique
  · rw [created]
    exact List.nodup_nil

/-- Every tick keeps the ids unique. -/
theorem uniqueKeys_stepTick (unique : UniqueKeys Version.key world.lake) {tick : Tick δ}
    {event : TickEvent} {next : World δ × Option (Tick δ)}
    (taken : stepTick pipe world tick event = some next) : UniqueKeys Version.key next.1.lake := by
  rcases stepTick_cases taken with ⟨found, _, rfl⟩ | ⟨_, rfl⟩ | ⟨_, _, _, rfl⟩ |
    ⟨_, batch, _, lake, _, _, present, rfl⟩ | ⟨_, _, _, rfl⟩ | rfl
  · exact uniqueKeys_createTable unique found
  · exact unique
  · exact unique
  · exact uniqueKeys_mergeInto (World.lake_eq present ▸ unique) batch
  · exact unique
  · exact unique

/-- Appending rows with unique ids. -/
theorem uniqueKeys_append_iff {lake rows : List (Version δ)} (lakeUnique : UniqueKeys Version.key lake)
    (rowsUnique : UniqueKeys Version.key rows) :
    UniqueKeys Version.key (lake ++ rows) ↔ forall version, version ∈ rows ->
      forall other, other ∈ lake -> other.id ≠ version.id := by
  rw [uniqueKeys_append]
  constructor
  · rintro ⟨_, _, apart⟩ version listed other stored same
    exact apart other.id (mem_keys.mpr ⟨other, stored, rfl⟩)
      (mem_keys.mpr ⟨version, listed, congrArg some same.symm⟩)
  · intro apart
    refine ⟨lakeUnique, rowsUnique, fun id before after => ?_⟩
    rcases mem_keys.mp before with ⟨other, stored, carriesBefore⟩
    rcases mem_keys.mp after with ⟨version, listed, carriesAfter⟩
    exact apart version listed other stored
      ((Option.some.inj carriesBefore).trans (Option.some.inj carriesAfter).symm)

/-- No step of a bootstrap run but a commit can repeat an id. -/
theorem uniqueKeys_stepBoot (unique : UniqueKeys Version.key world.lake) {event : BootEvent}
    (other : forall index, event ≠ .copy index .commit) (taken : stepBoot pipe world event = some after) :
    UniqueKeys Version.key after.lake := by
  rcases stepBoot_cases taken with ⟨_, rfl⟩ | ⟨found, _, rfl⟩ | ⟨chunks, _, rfl⟩ |
    ⟨copies, index, copy, copyEvent, next, same, _, _, stepped, rfl⟩ | ⟨_, _, _, rfl⟩ | ⟨_, _, _, rfl⟩ |
    ⟨_, rfl⟩
  · exact unique
  · exact uniqueKeys_createTable unique found
  · exact unique
  · rcases stepCopy_cases stepped with rfl | ⟨_, _, commits, _, _, rfl⟩ | rfl | rfl
    · exact unique
    · exact absurd (commits ▸ same) (other index)
    · exact unique
    · exact unique
  · exact unique
  · exact unique
  · exact unique

/-- A commit keeps the ids unique exactly if it brings none that is there. -/
theorem uniqueKeys_commit_iff (inv : ReadOnce world) (unique : UniqueKeys Version.key world.lake)
    {index : Nat} (taken : stepBoot pipe world (.copy index .commit) = some after) :
    UniqueKeys Version.key after.lake ↔ CommitsFresh world (.boot (.copy index .commit)) := by
  simp only [stepBoot] at taken
  split at taken
  · rename_i copies copying
    rcases Option.bind_eq_some_iff.mp taken with ⟨copy, found, stepped⟩
    rcases Option.map_eq_some_iff.mp stepped with ⟨next, moved, rfl⟩
    simp only [stepCopy] at moved
    split at moved
    · rename_i rows extracted
      rcases Option.map_eq_some_iff.mp moved with ⟨lake, present, rfl⟩
      have stored : world.lake = lake := World.lake_eq present
      have rowsUnique := inv.copies copies copying copy (List.mem_of_getElem? found) rows extracted
      have appended := uniqueKeys_append_iff unique rowsUnique
      rw [stored] at appended
      refine appended.trans ⟨fun apart => ?_, fun fresh => ?_⟩
      · intro others other otherRows copyingToo foundToo extractedToo
        cases copying.symm.trans copyingToo
        cases found.symm.trans foundToo
        cases extracted.symm.trans extractedToo
        exact stored ▸ apart
      · exact stored ▸ fresh copies copy rows copying found extracted
    · cases moved
  · cases taken

theorem uniqueKeys_step_iff (inv : ReadOnce world) (unique : UniqueKeys Version.key world.lake)
    {event : Event δ} (taken : step pipe world event = some after) :
    UniqueKeys Version.key after.lake ↔ CommitsFresh world event := by
  cases event with
  | source event =>
      refine iff_of_true ?_ trivial
      rcases stepSource_cases taken with ⟨_, _, _, rfl⟩ | ⟨_, _, _, _, rfl⟩ | ⟨_, _, rfl⟩
      · exact unique
      · exact unique
      · exact unique
  | beginTick =>
      cases taken
      exact iff_of_true unique trivial
  | tick index event =>
      refine iff_of_true ?_ trivial
      rcases Option.bind_eq_some_iff.mp taken with ⟨tick, _, stepped⟩
      rcases Option.map_eq_some_iff.mp stepped with ⟨next, moved, rfl⟩
      exact uniqueKeys_stepTick unique moved
  | boot event =>
      have stepped : stepBoot pipe world event = some after := taken
      cases event with
      | copy index copyEvent =>
          cases copyEvent with
          | commit => exact uniqueKeys_commit_iff inv unique stepped
          | extract => exact iff_of_true (uniqueKeys_stepBoot unique (by rintro _ ⟨⟩) stepped) trivial
          | markDone => exact iff_of_true (uniqueKeys_stepBoot unique (by rintro _ ⟨⟩) stepped) trivial
          | retry => exact iff_of_true (uniqueKeys_stepBoot unique (by rintro _ ⟨⟩) stepped) trivial
      | load => exact iff_of_true (uniqueKeys_stepBoot unique (by rintro _ ⟨⟩) stepped) trivial
      | create => exact iff_of_true (uniqueKeys_stepBoot unique (by rintro _ ⟨⟩) stepped) trivial
      | plan => exact iff_of_true (uniqueKeys_stepBoot unique (by rintro _ ⟨⟩) stepped) trivial
      | seedRead => exact iff_of_true (uniqueKeys_stepBoot unique (by rintro _ ⟨⟩) stepped) trivial
      | seedStore => exact iff_of_true (uniqueKeys_stepBoot unique (by rintro _ ⟨⟩) stepped) trivial
      | seedSkip => exact iff_of_true (uniqueKeys_stepBoot unique (by rintro _ ⟨⟩) stepped) trivial

/-! ## The run -/

/-- There is no lake table, the source has unique ids, and nothing has begun.
Without the first of them a bootstrap would add its rows to those that are there. -/
structure NoTable (world : World δ) : Prop where
  table : world.table = none
  source : UniqueKeys Version.key world.source
  boot : world.boot = .notStarted

/-- In every state of a run of both jobs the lake has at most one row of each id,
exactly if every chunk is committed to a lake without its ids.  A tick that runs
between the plan and a commit is enough to break it. -/
theorem unique_ids_iff (pipe : Pipeline δ) (world last : World δ) (events : List (Event δ))
    (start : NoTable world) (reached : run (step pipe) world events = some last) :
    Throughout (step pipe) (fun state => UniqueKeys Version.key state.lake) world events ↔
      Along (step pipe) CommitsFresh world events := by
  have inv : ReadOnce world := by
    refine ⟨start.source, ?_⟩
    rw [start.boot]
    rintro copies ⟨⟩
  have unique : UniqueKeys Version.key world.lake := by
    unfold World.lake
    rw [start.table]
    exact List.nodup_nil
  exact throughout_iff_along (fun _ _ _ inv taken => ReadOnce.step inv taken)
    (fun _ _ _ inv unique taken => uniqueKeys_step_iff inv unique taken) inv unique reached

instance decidableCommitsFresh (world : World δ) : forall event : Event δ, Decidable (CommitsFresh world event)
  | .boot (.copy index .commit) =>
      match here : world.boot with
      | .copying copies =>
          match found : copies[index]? with
          | some copy =>
              match extracted : copy.state with
              | .extracted rows => decidable_of_iff
                  (forall version, version ∈ rows -> forall other, other ∈ world.lake -> other.id ≠ version.id)
                  ⟨fun apart _ _ _ hereToo foundToo extractedToo => by
                      cases here.symm.trans hereToo
                      cases found.symm.trans foundToo
                      cases extracted.symm.trans extractedToo
                      exact apart,
                    fun fresh => fresh copies copy rows here found extracted⟩
              | .waiting | .committed | .finished => isTrue (fun _ _ _ hereToo foundToo extractedToo => by
                  cases here.symm.trans hereToo
                  cases found.symm.trans foundToo
                  cases extracted.symm.trans extractedToo)
          | none => isTrue (fun _ _ _ hereToo foundToo => by
              cases here.symm.trans hereToo
              cases found.symm.trans foundToo)
      | .notStarted | .loaded _ | .created | .seeding _ | .finished =>
          isTrue (fun _ _ _ hereToo => by cases here.symm.trans hereToo)
  | .boot .load | .boot .create | .boot .plan | .boot .seedRead | .boot .seedStore | .boot .seedSkip =>
      isTrue trivial
  | .boot (.copy _ .extract) | .boot (.copy _ .markDone) | .boot (.copy _ .retry) => isTrue trivial
  | .source _ => isTrue trivial
  | .beginTick => isTrue trivial
  | .tick _ _ => isTrue trivial

theorem sampleWorld_noTable : NoTable sampleWorld :=
  ⟨rfl, by decide, rfl⟩

/-- The chunk is read and committed, and then a tick merges the same row. -/
def tickAfterCommit : List (Event Nat) :=
  [.boot .load, .boot .create, .boot .plan, .boot (.copy 0 .extract), .boot (.copy 0 .commit)] ++ wholeTick 1

theorem tick_after_commit_keeps_ids : Exists fun last : World Nat =>
    run (step samplePipeline) sampleWorld tickAfterCommit = some last ∧
      Throughout (step samplePipeline) (fun state => UniqueKeys Version.key state.lake) sampleWorld
        tickAfterCommit := by
  have finished : (run (step samplePipeline) sampleWorld tickAfterCommit).isSome = true := by decide
  rcases Option.isSome_iff_exists.mp finished with ⟨last, reached⟩
  refine ⟨last, reached, ?_⟩
  apply (unique_ids_iff samplePipeline sampleWorld last tickAfterCommit sampleWorld_noTable reached).mpr
  decide

/-- The tick runs between the plan and the commit. -/
def tickBeforeCommit : List (Event Nat) :=
  [.boot .load, .boot .create, .boot .plan] ++ wholeTick 1 ++
    [.boot (.copy 0 .extract), .boot (.copy 0 .commit)]

theorem tick_before_commit_repeats_an_id : NoTable sampleWorld ∧
    Exists fun last : World Nat => run (step samplePipeline) sampleWorld tickBeforeCommit = some last ∧
      ¬ UniqueKeys Version.key last.lake := by
  have repeated : (run (step samplePipeline) sampleWorld tickBeforeCommit).map (fun last =>
      decide (UniqueKeys Version.key last.lake)) = some false := by decide
  rcases Option.map_eq_some_iff.mp repeated with ⟨last, reached, found⟩
  exact ⟨sampleWorld_noTable, last, reached, of_decide_eq_false found⟩

end TableSync
end WarehouseSync
