import WarehouseSync.Library.Transition
import Mathlib.Data.List.Nodup
import Mathlib.Data.List.Perm.Basic
import Mathlib.Data.List.Perm.Subperm
import Mathlib.Data.List.Forall2

namespace WarehouseSync
namespace DuckDBPool

open Transition

/-!
# The pool of query connections (`gateway/duckdb_pool.py`)

Connections are numbered.  An idle one waits in a queue; `acquire` takes the
front and gives it back at the end, both under the lock.  `for_each` acquires as
many times as there are connections, and applies its function to whatever it
gets.  Other threads take and give back meanwhile, so that the queue turns under
it.
-/

/-- One call of `for_each`, with the rounds that are left.  It counts rounds and not
connections, as the code does. -/
inductive Sweep where
  | idle
  | between (rounds : Nat)
  | applying (conn rounds : Nat)
  | returned
  | raised
deriving DecidableEq, Repr

/-- `holders` are the other threads with the connection each has; `applied` is what
the function of `for_each` was applied to, in order.  Connections are numbers, since
only their identity matters. -/
structure PoolState where
  size : Nat
  available : List Nat
  holders : List (Nat × Nat)
  sweep : Sweep
  applied : List Nat
deriving DecidableEq, Repr

inductive PoolEvent where
  | acquire (thread : Nat)
  | release (thread conn : Nat)
  | start
  | take
  | give
  | finish
  | raise
deriving DecidableEq, Repr

/-- `init`. -/
def PoolState.init (size : Nat) : PoolState :=
  { size := size, available := List.range size, holders := [], sweep := .idle, applied := [] }

/-- A thread waits while the queue is empty.  The sweep may raise in its function,
which gives the connection back, or by a timeout of `acquire`. -/
def step (state : PoolState) : PoolEvent -> Option PoolState
  | .acquire thread =>
      match state.available with
      | conn :: rest => some { state with available := rest, holders := state.holders ++ [(thread, conn)] }
      | [] => none
  | .release thread conn =>
      if (thread, conn) ∈ state.holders then
        some { state with available := state.available ++ [conn], holders := state.holders.erase (thread, conn) }
      else none
  | .start =>
      match state.sweep with
      | .idle => some { state with sweep := .between state.size }
      | _ => none
  | .take =>
      match state.sweep, state.available with
      | .between (rounds + 1), conn :: rest =>
          some { state with available := rest, sweep := .applying conn rounds }
      | _, _ => none
  | .give =>
      match state.sweep with
      | .applying conn rounds => some { state with
          available := state.available ++ [conn], sweep := .between rounds
          applied := state.applied ++ [conn] }
      | _ => none
  | .finish =>
      match state.sweep with
      | .between 0 => some { state with sweep := .returned }
      | _ => none
  | .raise =>
      match state.sweep with
      | .applying conn _ => some { state with available := state.available ++ [conn], sweep := .raised }
      | .between (_ + 1) => if state.available = [] then some { state with sweep := .raised } else none
      | _ => none

/-- The connection that the sweep holds. -/
def Sweep.held : Sweep -> List Nat
  | .applying conn _ => [conn]
  | _ => []

/-- Every connection is in the queue once, or held by exactly one thread.  It is
what keeps two queries from using one connection, and holds whatever the threads do.
-/
def OwnedOnce (state : PoolState) : Prop :=
  (state.available ++ state.holders.map Prod.snd ++ state.sweep.held).Perm (List.range state.size)

/-- The function reached every connection.  A sweep may return without this, when it
has met one connection twice. -/
def ReachedAll (state : PoolState) : Prop :=
  forall conn, conn < state.size -> conn ∈ state.applied

/-- The sweep takes a connection that its function was not applied to yet.  It is a
condition on the queue before the step, which other threads may have put in another
order. -/
def TakesFresh (state : PoolState) (event : PoolEvent) : Prop :=
  event = .take -> forall conn, conn ∈ state.available.head? -> conn ∉ state.applied

instance decidableTakesFresh (state : PoolState) (event : PoolEvent) : Decidable (TakesFresh state event) :=
  inferInstanceAs (Decidable (event = .take -> forall conn, conn ∈ state.available.head? -> conn ∉ state.applied))

/-- Everything a step can do, with its guards; a raise has two cases, as the sweep
holds a connection in one and none in the other. -/
inductive Effect (state : PoolState) : PoolEvent -> PoolState -> Prop
  | acquire {thread conn : Nat} {rest : List Nat} (queued : state.available = conn :: rest) :
      Effect state (.acquire thread)
        { state with available := rest, holders := state.holders ++ [(thread, conn)] }
  | release {thread conn : Nat} (held : (thread, conn) ∈ state.holders) :
      Effect state (.release thread conn)
        { state with available := state.available ++ [conn], holders := state.holders.erase (thread, conn) }
  | start (idle : state.sweep = .idle) : Effect state .start { state with sweep := .between state.size }
  | take {conn rounds : Nat} {rest : List Nat} (sweep : state.sweep = .between (rounds + 1))
      (queued : state.available = conn :: rest) :
      Effect state .take { state with available := rest, sweep := .applying conn rounds }
  | give {conn rounds : Nat} (sweep : state.sweep = .applying conn rounds) :
      Effect state .give
        { state with
          available := state.available ++ [conn], sweep := .between rounds, applied := state.applied ++ [conn] }
  | finish (sweep : state.sweep = .between 0) : Effect state .finish { state with sweep := .returned }
  | raiseApplying {conn rounds : Nat} (sweep : state.sweep = .applying conn rounds) :
      Effect state .raise { state with available := state.available ++ [conn], sweep := .raised }
  | raiseWaiting {rounds : Nat} (sweep : state.sweep = .between rounds) :
      Effect state .raise { state with sweep := .raised }

variable {state next : PoolState} {event : PoolEvent}

theorem effect_of_step (taken : step state event = some next) : Effect state event next := by
  cases event with
  | acquire thread =>
      simp only [step] at taken
      split at taken
      · rename_i conn rest queued
        cases taken
        exact Effect.acquire queued
      · cases taken
  | release thread conn =>
      simp only [step] at taken
      split at taken
      · rename_i held
        cases taken
        exact Effect.release held
      · cases taken
  | start =>
      simp only [step] at taken
      split at taken
      · rename_i idle
        cases taken
        exact Effect.start idle
      · cases taken
  | take =>
      simp only [step] at taken
      split at taken
      · rename_i rounds conn rest sweep queued
        cases taken
        exact Effect.take sweep queued
      · cases taken
  | give =>
      simp only [step] at taken
      split at taken
      · rename_i conn rounds sweep
        cases taken
        exact Effect.give sweep
      · cases taken
  | finish =>
      simp only [step] at taken
      split at taken
      · rename_i sweep
        cases taken
        exact Effect.finish sweep
      · cases taken
  | raise =>
      simp only [step] at taken
      split at taken
      · rename_i conn rounds sweep
        cases taken
        exact Effect.raiseApplying sweep
      · rename_i rounds sweep
        split at taken
        · cases taken
          exact Effect.raiseWaiting sweep
        · cases taken
      · cases taken

theorem ownedOnce_init (size : Nat) : OwnedOnce (PoolState.init size) := by
  unfold OwnedOnce PoolState.init Sweep.held
  simp

theorem OwnedOnce.preserved (owned : OwnedOnce state) (taken : step state event = some next) :
    OwnedOnce next := by
  unfold OwnedOnce at owned ⊢
  cases effect_of_step taken with
  | acquire queued =>
      rw [queued] at owned
      refine List.Perm.trans (List.perm_iff_count.mpr (fun other => ?_)) owned
      simp only [List.map_append, List.map_cons, List.map_nil, List.count_append, List.count_cons,
        List.count_nil]
      omega
  | release held =>
      have back := ((List.perm_cons_erase held).map Prod.snd).count_eq
      refine List.Perm.trans (List.perm_iff_count.mpr (fun other => ?_)) owned
      have counted := back other
      simp only [List.map_cons, List.count_append, List.count_cons, List.count_nil] at counted ⊢
      omega
  | start idle =>
      rw [idle] at owned
      exact owned
  | take sweep queued =>
      rw [queued, sweep] at owned
      refine List.Perm.trans (List.perm_iff_count.mpr (fun other => ?_)) owned
      simp only [Sweep.held, List.count_append, List.count_cons, List.count_nil]
      omega
  | give sweep =>
      rw [sweep] at owned
      refine List.Perm.trans (List.perm_iff_count.mpr (fun other => ?_)) owned
      simp only [Sweep.held, List.count_append, List.count_cons, List.count_nil]
      omega
  | finish sweep =>
      rw [sweep] at owned
      exact owned
  | raiseApplying sweep =>
      rw [sweep] at owned
      refine List.Perm.trans (List.perm_iff_count.mpr (fun other => ?_)) owned
      simp only [Sweep.held, List.count_append, List.count_cons, List.count_nil]
      omega
  | raiseWaiting sweep =>
      rw [sweep] at owned
      exact owned

/-! ## What the sweep has done -/

/-- Rounds and applications add up to the size of the pool.  So a sweep that returns
has applied its function as often as there are connections. -/
def Counted (state : PoolState) : Prop :=
  match state.sweep with
  | .idle => state.applied = []
  | .between rounds => state.applied.length + rounds = state.size
  | .applying _ rounds => state.applied.length + rounds + 1 = state.size
  | .returned => state.applied.length = state.size
  | .raised => True

/-- The function was applied to connections of the pool, and to each as often as it
was taken.  It is kept by the steps of other threads, which change only the order of
the queue. -/
structure SweepInvariant (state : PoolState) : Prop where
  owned : OwnedOnce state
  counted : Counted state
  inside : forall conn, conn ∈ state.applied -> conn < state.size

theorem sweepInvariant_init (size : Nat) : SweepInvariant (PoolState.init size) :=
  ⟨ownedOnce_init size, rfl, fun _ member => absurd member List.not_mem_nil⟩

/-- The connection that is being swept is one of the pool. -/
theorem OwnedOnce.held_lt (owned : OwnedOnce state) {conn : Nat} (member : conn ∈ state.sweep.held) :
    conn < state.size :=
  List.mem_range.mp (owned.mem_iff.mp (List.mem_append_right _ member))

/-- Every step counts its round. -/
theorem Counted.preserved (counted : Counted state) (taken : step state event = some next) :
    Counted next := by
  unfold Counted at counted ⊢
  cases effect_of_step taken with
  | acquire queued => exact counted
  | release held => exact counted
  | start idle =>
      simp only [idle] at counted
      simp [counted]
  | take sweep queued =>
      simp only [sweep] at counted
      simp only
      omega
  | give sweep =>
      simp only [sweep] at counted
      simp only [List.length_append, List.length_singleton]
      omega
  | finish sweep =>
      simp only [sweep] at counted
      exact counted
  | raiseApplying sweep => trivial
  | raiseWaiting sweep => trivial

theorem SweepInvariant.preserved (inv : SweepInvariant state) (taken : step state event = some next) :
    SweepInvariant next := by
  refine ⟨inv.owned.preserved taken, inv.counted.preserved taken, ?_⟩
  cases effect_of_step taken with
  | acquire queued => exact inv.inside
  | release held => exact inv.inside
  | start idle => exact inv.inside
  | take sweep queued => exact inv.inside
  | @give conn rounds sweep =>
      intro other member
      rcases List.mem_append.mp member with before | now
      · exact inv.inside other before
      · rw [List.mem_singleton.mp now]
        exact inv.owned.held_lt (by rw [sweep]; exact List.mem_singleton_self conn)
  | finish sweep => exact inv.inside
  | raiseApplying sweep => exact inv.inside
  | raiseWaiting sweep => exact inv.inside

/-- No connection was met twice, the one in hand included.  Together with the count
it means that all of them were met. -/
def Distinct (state : PoolState) : Prop :=
  (state.applied ++ state.sweep.held).Nodup

theorem Distinct.preserved (distinct : Distinct state) (fresh : TakesFresh state event)
    (taken : step state event = some next) : Distinct next := by
  unfold Distinct at distinct ⊢
  cases effect_of_step taken with
  | acquire queued => exact distinct
  | release held => exact distinct
  | start idle =>
      rw [idle] at distinct
      exact distinct
  | @take conn rounds rest sweep queued =>
      rw [sweep] at distinct
      have apart : conn ∉ state.applied :=
        fresh rfl conn (by rw [queued, List.head?_cons]; exact Option.mem_some_self conn)
      have before : state.applied.Nodup := List.Nodup.of_append_left distinct
      change (state.applied ++ [conn]).Nodup
      rw [← List.concat_eq_append]
      exact List.Nodup.concat apart before
  | @give conn rounds sweep =>
      rw [sweep] at distinct
      change (state.applied ++ [conn] ++ []).Nodup
      rw [List.append_nil]
      exact distinct
  | finish sweep =>
      rw [sweep] at distinct
      exact distinct
  | raiseApplying sweep =>
      change (state.applied ++ []).Nodup
      rw [List.append_nil]
      exact List.Nodup.of_append_left distinct
  | raiseWaiting sweep =>
      rw [sweep] at distinct
      exact distinct

/-- A sweep that did not raise and met no connection twice took a fresh one each
time. -/
theorem Distinct.inherited (taken : step state event = some next)
    (after : Distinct next ∧ next.sweep ≠ .raised) :
    (Distinct state ∧ state.sweep ≠ .raised) ∧ TakesFresh state event := by
  unfold Distinct at after ⊢
  cases effect_of_step taken with
  | acquire queued => exact ⟨after, fun other => PoolEvent.noConfusion other⟩
  | release held => exact ⟨after, fun other => PoolEvent.noConfusion other⟩
  | start idle =>
      rw [idle]
      exact ⟨⟨after.1, Sweep.noConfusion⟩, fun other => PoolEvent.noConfusion other⟩
  | @take conn rounds rest sweep queued =>
      have apart : (state.applied ++ [conn]).Nodup := after.1
      rw [sweep]
      refine ⟨⟨?_, Sweep.noConfusion⟩, ?_⟩
      · change (state.applied ++ []).Nodup
        rw [List.append_nil]
        exact List.Nodup.of_append_left apart
      · intro _ other front
        rw [queued, List.head?_cons] at front
        cases front
        exact fun member => List.disjoint_of_nodup_append apart member (List.mem_singleton_self conn)
  | @give conn rounds sweep =>
      have apart : (state.applied ++ [conn] ++ []).Nodup := after.1
      rw [List.append_nil] at apart
      rw [sweep]
      exact ⟨⟨apart, Sweep.noConfusion⟩, fun other => PoolEvent.noConfusion other⟩
  | finish sweep =>
      rw [sweep]
      exact ⟨⟨after.1, Sweep.noConfusion⟩, fun other => PoolEvent.noConfusion other⟩
  | raiseApplying sweep => exact absurd rfl after.2
  | raiseWaiting sweep => exact absurd rfl after.2

/-- As many applications as there are connections reach all of them exactly if
none is repeated. -/
theorem SweepInvariant.reachedAll_iff (inv : SweepInvariant state) (returned : state.sweep = .returned) :
    ReachedAll state ↔ Distinct state := by
  have counted := inv.counted
  unfold Counted at counted
  unfold Distinct
  simp only [returned] at counted
  rw [returned]
  change _ ↔ (state.applied ++ []).Nodup
  rw [List.append_nil]
  have sizes : (List.range state.size).length = state.applied.length := by
    rw [List.length_range, counted]
  constructor
  · intro reached
    have covered : (List.range state.size).Subperm state.applied :=
      List.subperm_of_subset List.nodup_range (fun conn member => reached conn (List.mem_range.mp member))
    exact (covered.perm_of_length_le (Nat.le_of_eq sizes.symm)).nodup List.nodup_range
  · intro apart conn small
    have covered : state.applied.Subperm (List.range state.size) :=
      List.subperm_of_subset apart (fun other member => List.mem_range.mpr (inv.inside other member))
    exact (covered.perm_of_length_le (Nat.le_of_eq sizes)).symm.subset (List.mem_range.mpr small)

/-- Ownership holds whatever other threads do, and a sweep that returns has reached
the whole pool exactly if each connection it took was a fresh one. -/
theorem forEach_reaches_all_iff (size : Nat) (events : List PoolEvent) {last : PoolState}
    (reached : run step (PoolState.init size) events = some last) :
    Throughout step OwnedOnce (PoolState.init size) events ∧
      (last.sweep = .returned ->
        (ReachedAll last ↔ Along step TakesFresh (PoolState.init size) events)) := by
  have fromInit : Distinct (PoolState.init size) := List.nodup_nil
  refine ⟨?_, fun returned => ?_⟩
  · exact throughout_of_first (fun state event next owned taken => owned.preserved taken) events
      (ownedOnce_init size)
  have inv : SweepInvariant last :=
    run_invariant_always (fun state event next inv taken => inv.preserved taken) (sweepInvariant_init size) reached
  rw [inv.reachedAll_iff returned]
  constructor
  · intro distinct
    have unraised : last.sweep ≠ .raised := by
      rw [returned]
      exact Sweep.noConfusion
    exact (along_of_last (fun state event next taken after => Distinct.inherited taken after) reached
      ⟨distinct, unraised⟩).2
  · intro along
    exact run_invariant (fun state event next distinct fresh taken => distinct.preserved fresh taken)
      fromInit along reached

/-- Two connections, and another thread that takes one and gives it back before
the sweep. -/
def quietSweep : List PoolEvent :=
  [.acquire 1, .release 1 0, .start, .take, .give, .take, .give, .finish]

theorem quiet_sweep_reaches_all :
    Exists fun last => run step (PoolState.init 2) quietSweep = some last ∧ last.sweep = .returned ∧
      ReachedAll last := by
  have ran : run step (PoolState.init 2) quietSweep = some
      { size := 2, available := [1, 0], holders := [], sweep := .returned, applied := [1, 0] } := by decide
  exact ⟨_, ran, rfl, ((forEach_reaches_all_iff 2 quietSweep ran).2 rfl).mpr (by decide)⟩

/-- Another thread holds one of two connections while the sweep runs. -/
def busySweep : List PoolEvent :=
  [.acquire 1, .start, .take, .give, .take, .give, .finish, .release 1 0]

/-- The sweep met the free connection twice, and returned. -/
theorem busy_connection_is_missed :
    Exists fun last => run step (PoolState.init 2) busySweep = some last ∧ last.sweep = .returned ∧
      Not (ReachedAll last) := by
  refine ⟨{ size := 2, available := [1, 0], holders := [], sweep := .returned, applied := [1, 1] },
    by decide, rfl, fun reached => ?_⟩
  exact absurd (reached 0 (by decide)) (by decide)

section Sweeps
universe u
variable {α : Type u}

/-- `for_each` while no other thread is at the pool: take the front, apply the
function, give the connection back at the end.  The function says whether it raised,
since an exception ends the sweep only after the connection has been given back. -/
def forEach (fn : α -> α × Bool) : Nat -> List α -> List α
  | rounds + 1, conn :: rest =>
      if (fn conn).2 then rest ++ [(fn conn).1] else forEach fn rounds (rest ++ [(fn conn).1])
  | _, available => available

/-- The connections a sweep reaches, as it leaves them, and the others. -/
def swept (fn : α -> α × Bool) : List α -> List α × List α
  | [] => ([], [])
  | conn :: rest =>
      if (fn conn).2 then ([(fn conn).1], rest)
      else ((fn conn).1 :: (swept fn rest).1, (swept fn rest).2)

theorem forEach_length_append (fn : α -> α × Bool) (front back : List α) :
    forEach fn front.length (front ++ back) = (swept fn front).2 ++ back ++ (swept fn front).1 := by
  induction front generalizing back with
  | nil => cases back <;> simp [forEach, swept]
  | cons conn front ih =>
      rw [List.length_cons, List.cons_append, forEach, swept]
      split
      · rfl
      · rw [List.append_assoc, ih]
        simp

/-- By itself, a sweep puts the connections it reaches behind the others. -/
theorem forEach_alone (fn : α -> α × Bool) (available : List α) :
    forEach fn available.length available = (swept fn available).2 ++ (swept fn available).1 := by
  have alone := forEach_length_append fn available []
  rwa [List.append_nil, List.append_nil] at alone

/-- What the function does to one connection holds of each that the sweep reaches, and
of all of them when nothing raises. -/
theorem forall₂_swept {related : α -> α -> Prop} {fn : α -> α × Bool} {pool : List α}
    (reached : forall conn, conn ∈ pool -> related conn (fn conn).1)
    (others : (forall conn, conn ∈ pool -> (fn conn).2 = false) ∨ forall conn, conn ∈ pool -> related conn conn) :
    List.Forall₂ related pool ((swept fn pool).1 ++ (swept fn pool).2) := by
  induction pool with
  | nil => exact List.Forall₂.nil
  | cons conn pool ih =>
      have rest := ih (fun other member => reached other (List.mem_cons_of_mem _ member))
        (others.imp (fun quiet other member => quiet other (List.mem_cons_of_mem _ member))
          (fun same other member => same other (List.mem_cons_of_mem _ member)))
      rw [swept]
      split
      · rename_i raised
        rcases others with quiet | same
        · rw [quiet conn List.mem_cons_self] at raised
          cases raised
        · exact List.Forall₂.cons (reached conn List.mem_cons_self)
            (List.forall₂_same.mpr (fun other member => same other (List.mem_cons_of_mem _ member)))
      · exact List.Forall₂.cons (reached conn List.mem_cons_self) rest

end Sweeps

end DuckDBPool
end WarehouseSync
