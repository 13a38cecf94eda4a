import Mathlib.Logic.Relation
import Mathlib.Tactic.Common
import StringAudit.Proofs.Action

/-!
# A pool of workers

All tasks are submitted at once, in the order of their items.  A free worker starts the first task that
is waiting; the tasks that are running may end in any order.  The results are drained in the order of
submission: each is awaited in its turn, and an error among them is raised when its turn comes, which
cancels the tasks that are still waiting.  The pool is done when nothing can happen any more, so that
running tasks are waited for also after an error.

What a task comes to depends on its item alone.  The invariant of a pool is that what has been drained is
the outcome of working on the first items one after the other; from it follows that the outcome of the
whole does not depend on the schedule.
-/

namespace StringAudit

variable {α ε β : Type}

/-- Where a task stands. -/
inductive Pool.Stage (ε β : Type)
  | waiting
  | running
  | done (result : Except ε β)
  | cancelled

/-- A task: an item to work on, and where it stands. -/
structure Pool.Task (α ε β : Type) where
  item : α
  stage : Pool.Stage ε β

/-- The state of a pool. -/
structure Pool (α ε β : Type) where
  /-- The tasks, in the order in which they were submitted. -/
  tasks : List (Pool.Task α ε β)
  /-- The results that have been drained. -/
  drained : List β := []
  /-- The error that was raised, which ends the draining. -/
  raised : Option ε := none

namespace Pool

/-- Whether a task is running. -/
def Task.isRunning (t : Task α ε β) : Bool :=
  match t.stage with
  | .running => true
  | _ => false

/-- Cancel a task if it is still waiting. -/
def Task.cancel (t : Task α ε β) : Task α ε β :=
  match t.stage with
  | .waiting => { t with stage := .cancelled }
  | _ => t

/-- How many tasks are running. -/
def busy (tasks : List (Task α ε β)) : Nat :=
  tasks.countP Task.isRunning

/-- The pool to which items have just been submitted. -/
def submit (items : List α) : Pool α ε β :=
  ⟨items.map fun item => ⟨item, .waiting⟩, [], none⟩

/-- What can happen in a pool of so many workers. -/
inductive Step (workers : Nat) (work : α → Except ε β) : Pool α ε β → Pool α ε β → Prop
  /-- A free worker starts the first task that is waiting. -/
  | start (front : List (Task α ε β)) (item : α) (back : List (Task α ε β)) (drained : List β)
      (raised : Option ε) (first : ∀ t ∈ front, t.stage ≠ .waiting)
      (free : busy (front ++ ⟨item, .waiting⟩ :: back) < workers) :
      Step workers work ⟨front ++ ⟨item, .waiting⟩ :: back, drained, raised⟩
        ⟨front ++ ⟨item, .running⟩ :: back, drained, raised⟩
  /-- Any running task ends. -/
  | finish (front : List (Task α ε β)) (item : α) (back : List (Task α ε β)) (drained : List β)
      (raised : Option ε) :
      Step workers work ⟨front ++ ⟨item, .running⟩ :: back, drained, raised⟩
        ⟨front ++ ⟨item, .done (work item)⟩ :: back, drained, raised⟩
  /-- The next result is drained. -/
  | drain (front : List (Task α ε β)) (item : α) (result : β) (back : List (Task α ε β))
      (drained : List β) (next : front.length = drained.length) :
      Step workers work ⟨front ++ ⟨item, .done (.ok result)⟩ :: back, drained, none⟩
        ⟨front ++ ⟨item, .done (.ok result)⟩ :: back, drained ++ [result], none⟩
  /-- The next result is an error and is raised; the tasks that are waiting are cancelled. -/
  | raise (front : List (Task α ε β)) (item : α) (error : ε) (back : List (Task α ε β))
      (drained : List β) (next : front.length = drained.length) :
      Step workers work ⟨front ++ ⟨item, .done (.error error)⟩ :: back, drained, none⟩
        ⟨(front ++ ⟨item, .done (.error error)⟩ :: back).map Task.cancel, drained, some error⟩

/-- One pool comes from another by any number of steps. -/
def Reaches (workers : Nat) (work : α → Except ε β) : Pool α ε β → Pool α ε β → Prop :=
  Relation.ReflTransGen (Step workers work)

/-- Nothing can happen any more. -/
def Final (workers : Nat) (work : α → Except ε β) (pool : Pool α ε β) : Prop :=
  ∀ next, ¬ Step workers work pool next

/-- The outcome of a pool: the error that was raised, or else all that was drained. -/
def outcome (pool : Pool α ε β) : Except ε (List β) :=
  match pool.raised with
  | some error => .error error
  | none => .ok pool.drained

/-! ## Working on one item after the other -/

theorem mapM_cons_eq_ok_iff {work : α → Except ε β} {item : α} {items : List α} {results : List β} :
    (item :: items).mapM work = .ok results ↔
      ∃ result others, work item = .ok result ∧ items.mapM work = .ok others ∧
        results = result :: others := by
  simp only [List.mapM_cons, Except.bind_eq_ok_iff, pure, Except.pure, Except.ok.injEq]
  constructor
  · rintro ⟨result, first, others, rest, rfl⟩
    exact ⟨result, others, first, rest, rfl⟩
  · rintro ⟨result, others, first, rest, rfl⟩
    exact ⟨result, first, others, rest, rfl⟩

theorem length_of_mapM {work : α → Except ε β} {items : List α} {results : List β}
    (worked : items.mapM work = .ok results) : results.length = items.length := by
  induction items generalizing results with
  | nil =>
      cases worked
      rfl
  | cons item rest ih =>
      obtain ⟨_, others, _, othersEq, rfl⟩ := mapM_cons_eq_ok_iff.mp worked
      rw [List.length_cons, List.length_cons, ih othersEq]

theorem exists_mapM {work : α → Except ε β} {items : List α}
    (each : ∀ item ∈ items, ∃ result, work item = .ok result) :
    ∃ results, items.mapM work = .ok results := by
  induction items with
  | nil => exact ⟨[], rfl⟩
  | cons item rest ih =>
      obtain ⟨⟨result, first⟩, others⟩ := List.forall_mem_cons.mp each
      obtain ⟨results, restEq⟩ := ih others
      exact ⟨result :: results, mapM_cons_eq_ok_iff.mpr ⟨result, results, first, restEq, rfl⟩⟩

theorem mapM_append_singleton {work : α → Except ε β} {items : List α} {results : List β} {item : α}
    {result : β} (worked : items.mapM work = .ok results) (last : work item = .ok result) :
    (items ++ [item]).mapM work = .ok (results ++ [result]) := by
  rw [List.mapM_append, worked, List.mapM_cons, last]
  rfl

/-- The first error is the outcome. -/
theorem mapM_eq_error {work : α → Except ε β} {front back : List α} {results : List β} {item : α}
    {error : ε} (worked : front.mapM work = .ok results) (failed : work item = .error error) :
    (front ++ item :: back).mapM work = .error error := by
  rw [List.mapM_append, worked, List.mapM_cons, failed]
  rfl

/-! ## The invariant -/

variable {workers : Nat} {work : α → Except ε β} {items : List α} {pool next : Pool α ε β}

/-- The invariant of a pool to which items were submitted. -/
structure Sound (workers : Nat) (work : α → Except ε β) (items : List α) (pool : Pool α ε β) :
    Prop where
  /-- The tasks are those that were submitted. -/
  items_eq : pool.tasks.map (·.item) = items
  /-- A task that is done has the result of its item. -/
  done_eq : ∀ t ∈ pool.tasks, ∀ result, t.stage = .done result → result = work t.item
  /-- What was drained is the outcome of the first items, and an error that was raised that of the
  next one. -/
  past : ∃ past rest, items = past ++ rest ∧ past.mapM work = .ok pool.drained ∧
    ∀ error, pool.raised = some error → ∃ item later, rest = item :: later ∧ work item = .error error
  /-- Nothing is cancelled before an error is raised. -/
  uncancelled : pool.raised = none → ∀ t ∈ pool.tasks, t.stage ≠ .cancelled
  /-- No more tasks are running than there are workers. -/
  busy_le : busy pool.tasks ≤ workers

theorem busy_of_running (front : List (Task α ε β)) (item : α) (back : List (Task α ε β)) :
    busy (front ++ ⟨item, .running⟩ :: back) = busy front + busy back + 1 := by
  rw [busy, List.countP_append, List.countP_cons_of_pos rfl, busy, busy, Nat.add_assoc]

theorem busy_of_not_running (front : List (Task α ε β)) {t : Task α ε β} (back : List (Task α ε β))
    (idle : t.isRunning = false) : busy (front ++ t :: back) = busy front + busy back := by
  rw [busy, List.countP_append, List.countP_cons_of_neg (by simp [idle]), busy, busy]

@[simp]
theorem Task.item_cancel (t : Task α ε β) : t.cancel.item = t.item := by
  rw [Task.cancel]
  split <;> rfl

theorem Task.isRunning_cancel (t : Task α ε β) : t.cancel.isRunning = t.isRunning := by
  rcases t with ⟨item, stage⟩
  cases stage <;> rfl

theorem Task.stage_of_cancel {t : Task α ε β} {result : Except ε β}
    (done : t.cancel.stage = .done result) : t.stage = .done result := by
  rcases t with ⟨item, stage⟩
  cases stage with
  | waiting => cases done
  | _ => exact done

theorem sound_submit (workers : Nat) (work : α → Except ε β) (items : List α) :
    Sound workers work items (submit items) where
  items_eq := by simp [submit, Function.comp_def]
  done_eq := by
    intro t mem result done
    obtain ⟨item, _, rfl⟩ := List.mem_map.mp mem
    cases done
  past := by
    refine ⟨[], items, rfl, rfl, ?_⟩
    intro error raised
    cases raised
  uncancelled := by
    intro _ t mem cancelled
    obtain ⟨item, _, rfl⟩ := List.mem_map.mp mem
    cases cancelled
  busy_le := by
    have idle : busy (submit items : Pool α ε β).tasks = 0 := by
      rw [busy, List.countP_eq_zero]
      intro t mem
      obtain ⟨item, _, rfl⟩ := List.mem_map.mp mem
      exact Bool.false_ne_true
    omega

/-- Where the next result stands among the items. -/
theorem Sound.next_item {front back : List (Task α ε β)} {t : Task α ε β}
    (sound : Sound workers work items pool) (tasksEq : pool.tasks = front ++ t :: back)
    (length : front.length = pool.drained.length) :
    items = front.map (·.item) ++ t.item :: back.map (·.item) ∧
      (front.map (·.item)).mapM work = .ok pool.drained := by
  obtain ⟨past, rest, itemsEq, worked, -⟩ := sound.past
  have whole : items = front.map (·.item) ++ t.item :: back.map (·.item) := by
    rw [← sound.items_eq, tasksEq, List.map_append, List.map_cons]
  have same : past.length = (front.map (·.item)).length := by
    rw [List.length_map, length, length_of_mapM worked]
  obtain ⟨rfl, -⟩ := List.append_inj (itemsEq.symm.trans whole) same
  exact ⟨whole, worked⟩

/-- Replacing a task by one of the same item that is in another stage keeps what does not depend on
the stage. -/
theorem Sound.restage {front back : List (Task α ε β)} {item : α} {old new : Stage ε β}
    {drained : List β} {raised : Option ε}
    (sound : Sound workers work items ⟨front ++ ⟨item, old⟩ :: back, drained, raised⟩)
    (done : ∀ result, new = .done result → result = work item) (uncancelled : new ≠ .cancelled)
    (few : busy (front ++ ⟨item, new⟩ :: back) ≤ workers) :
    Sound workers work items ⟨front ++ ⟨item, new⟩ :: back, drained, raised⟩ where
  items_eq := by
    rw [← sound.items_eq, List.map_append, List.map_append, List.map_cons, List.map_cons]
  done_eq := by
    have others := sound.done_eq
    simp only [List.forall_mem_append, List.forall_mem_cons] at others ⊢
    exact ⟨others.1, done, others.2.2⟩
  past := sound.past
  uncancelled := by
    intro unraised
    have others := sound.uncancelled unraised
    simp only [List.forall_mem_append, List.forall_mem_cons] at others ⊢
    exact ⟨others.1, uncancelled, others.2.2⟩
  busy_le := few

/-- Every step keeps the invariant. -/
theorem Sound.step (sound : Sound workers work items pool) (step : Step workers work pool next) :
    Sound workers work items next := by
  cases step with
  | start front item back drained raised first free =>
      refine sound.restage (fun _ done => by cases done) (by simp) ?_
      rw [busy_of_not_running front back rfl] at free
      rwa [busy_of_running]
  | finish front item back drained raised =>
      refine sound.restage (fun _ done => (Stage.done.inj done).symm) (by simp) ?_
      have few := sound.busy_le
      rw [busy_of_running] at few
      rw [busy_of_not_running front back rfl]
      omega
  | drain front item result back drained length =>
      obtain ⟨whole, worked⟩ := sound.next_item rfl length
      have resultEq := sound.done_eq ⟨item, .done (.ok result)⟩ (by simp) _ rfl
      refine ⟨sound.items_eq, sound.done_eq, ?_, sound.uncancelled, sound.busy_le⟩
      refine ⟨front.map (·.item) ++ [item], back.map (·.item), ?_,
        mapM_append_singleton worked resultEq.symm, ?_⟩
      · rw [whole, List.append_assoc, List.singleton_append]
      · intro error raised
        cases raised
  | raise front item error back drained length =>
      obtain ⟨whole, worked⟩ := sound.next_item rfl length
      have errorEq := sound.done_eq ⟨item, .done (.error error)⟩ (by simp) _ rfl
      constructor
      case items_eq => simpa [Function.comp_def] using sound.items_eq
      case done_eq =>
        intro t mem result done
        obtain ⟨old, oldMem, rfl⟩ := List.mem_map.mp mem
        rw [Task.item_cancel]
        exact sound.done_eq old oldMem result (Task.stage_of_cancel done)
      case past =>
        refine ⟨front.map (·.item), item :: back.map (·.item), whole, worked, ?_⟩
        intro error' raised
        obtain rfl := Option.some.inj raised
        exact ⟨item, _, rfl, errorEq.symm⟩
      case uncancelled =>
        intro raised
        cases raised
      case busy_le =>
        have same : ∀ tasks : List (Task α ε β), busy (tasks.map Task.cancel) = busy tasks := by
          intro tasks
          simp only [busy, List.countP_map, Function.comp_def, Task.isRunning_cancel]
        rw [same]
        exact sound.busy_le

/-- Every pool that is reached from a new one has the invariant. -/
theorem Sound.reaches (sound : Sound workers work items pool) (reaches : Reaches workers work pool next) :
    Sound workers work items next := by
  induction reaches with
  | refl => exact sound
  | tail _ step ih => exact ih.step step

/-! ## The end -/

/-- Every task has ended, and everything has been drained unless an error was raised. -/
structure Ended (pool : Pool α ε β) : Prop where
  settled : ∀ t ∈ pool.tasks, t.stage ≠ .waiting ∧ t.stage ≠ .running
  complete : pool.raised = none → pool.drained.length = pool.tasks.length

/-- Nothing can happen in a pool that has ended. -/
theorem Ended.final (ended : Ended pool) : Final workers work pool := by
  intro next step
  cases step with
  | start front item back =>
      exact (ended.settled ⟨item, .waiting⟩ (by simp)).1 rfl
  | finish front item back =>
      exact (ended.settled ⟨item, .running⟩ (by simp)).2 rfl
  | drain front item result back drained length =>
      have whole : drained.length = (front ++ _ :: back).length := ended.complete rfl
      rw [List.length_append, List.length_cons] at whole
      omega
  | raise front item error back drained length =>
      have whole : drained.length = (front ++ _ :: back).length := ended.complete rfl
      rw [List.length_append, List.length_cons] at whole
      omega

/-- Whether a task is waiting. -/
def Task.isWaiting (t : Task α ε β) : Bool :=
  match t.stage with
  | .waiting => true
  | _ => false

theorem Task.isWaiting_iff {t : Task α ε β} : t.isWaiting = true ↔ t.stage = .waiting := by
  rcases t with ⟨item, stage⟩
  cases stage <;> simp [Task.isWaiting]

theorem Task.isRunning_iff {t : Task α ε β} : t.isRunning = true ↔ t.stage = .running := by
  rcases t with ⟨item, stage⟩
  cases stage <;> simp [Task.isRunning]

/-- A running task can end. -/
theorem not_final_of_running {t : Task α ε β} (mem : t ∈ pool.tasks) (running : t.stage = .running) :
    ¬ Final workers work pool := by
  intro final
  obtain ⟨tasks, drained, raised⟩ := pool
  obtain ⟨item, stage⟩ := t
  obtain rfl := running
  obtain ⟨front, back, rfl⟩ := List.append_of_mem mem
  exact final _ (.finish front item back drained raised)

/-- While a worker is free, the first task that is waiting can start. -/
theorem not_final_of_waiting (free : busy pool.tasks < workers) {t : Task α ε β}
    (mem : t ∈ pool.tasks) (waiting : t.stage = .waiting) : ¬ Final workers work pool := by
  intro final
  obtain ⟨tasks, drained, raised⟩ := pool
  obtain ⟨first, found⟩ : ∃ first, tasks.find? Task.isWaiting = some first :=
    Option.isSome_iff_exists.mp (List.find?_isSome.mpr ⟨t, mem, Task.isWaiting_iff.mpr waiting⟩)
  obtain ⟨isFirst, front, back, rfl, others⟩ := List.find?_eq_some_iff_append.mp found
  obtain ⟨item, stage⟩ := first
  obtain rfl : stage = .waiting := Task.isWaiting_iff.mp isFirst
  refine final _ (.start front item back drained raised ?_ free)
  intro other otherMem otherWaiting
  have notWaiting := others other otherMem
  rw [Task.isWaiting_iff.mpr otherWaiting] at notWaiting
  cases notWaiting

/-- While no error was raised, the next result can be drained or raised once its task has ended. -/
theorem Sound.not_final_of_next (sound : Sound workers work items pool) (unraised : pool.raised = none)
    (settled : ∀ t ∈ pool.tasks, t.stage ≠ .waiting ∧ t.stage ≠ .running)
    (more : pool.drained.length < pool.tasks.length) : ¬ Final workers work pool := by
  intro final
  have uncancelled := sound.uncancelled unraised
  obtain ⟨tasks, drained, raised⟩ := pool
  obtain rfl := unraised
  have mem : tasks[drained.length] ∈ tasks := List.getElem_mem more
  have parts : tasks = tasks.take drained.length ++
      tasks[drained.length] :: tasks.drop (drained.length + 1) := by
    rw [← List.drop_eq_getElem_cons more, List.take_append_drop]
  have length : (tasks.take drained.length).length = drained.length :=
    List.length_take_of_le (Nat.le_of_lt more)
  generalize tasks[drained.length] = t at mem parts
  generalize tasks.take drained.length = front at parts length
  generalize tasks.drop (drained.length + 1) = back at parts
  subst parts
  obtain ⟨item, stage⟩ := t
  cases stage with
  | waiting => exact (settled _ mem).1 rfl
  | running => exact (settled _ mem).2 rfl
  | cancelled => exact uncancelled _ mem rfl
  | done result =>
      cases result with
      | ok result => exact final _ (.drain front item result back drained length)
      | error error => exact final _ (.raise front item error back drained length)

/-- With at least one worker, a pool in which nothing can happen any more has ended. -/
theorem Sound.ended (sound : Sound workers work items pool) (positive : 0 < workers)
    (final : Final workers work pool) : Ended pool := by
  have unrunning : ∀ t ∈ pool.tasks, t.stage ≠ .running :=
    fun t mem running => not_final_of_running mem running final
  have idle : busy pool.tasks = 0 := by
    rw [busy, List.countP_eq_zero]
    exact fun t mem running => unrunning t mem (Task.isRunning_iff.mp running)
  have settled : ∀ t ∈ pool.tasks, t.stage ≠ .waiting ∧ t.stage ≠ .running :=
    fun t mem =>
      ⟨fun waiting => not_final_of_waiting (idle ▸ positive) mem waiting final, unrunning t mem⟩
  refine ⟨settled, fun unraised => ?_⟩
  obtain ⟨past, rest, itemsEq, worked, -⟩ := sound.past
  have lengths := congrArg List.length (sound.items_eq.trans itemsEq)
  rw [List.length_map, List.length_append, ← length_of_mapM worked] at lengths
  by_contra incomplete
  exact sound.not_final_of_next unraised settled (by omega) final

/-- The outcome of a pool that has ended is that of working on the items one after the other. -/
theorem Sound.outcome_eq (sound : Sound workers work items pool) (ended : Ended pool) :
    pool.outcome = items.mapM work := by
  obtain ⟨past, rest, itemsEq, worked, failed⟩ := sound.past
  rw [outcome]
  split
  · rename_i error raised
    obtain ⟨item, later, rfl, errorEq⟩ := failed error raised
    rw [itemsEq, mapM_eq_error worked errorEq]
  · rename_i unraised
    have lengths := congrArg List.length (sound.items_eq.trans itemsEq)
    rw [List.length_map, List.length_append, ← length_of_mapM worked, ended.complete unraised] at lengths
    obtain rfl : rest = [] := List.length_eq_zero_iff.mp (by omega)
    rw [itemsEq, List.append_nil, worked]

/-- Whatever the schedule, the outcome of a pool with at least one worker is that of working on the
items one after the other. -/
theorem outcome_of_final (positive : 0 < workers) (reaches : Reaches workers work (submit items) pool)
    (final : Final workers work pool) : pool.outcome = items.mapM work := by
  have sound := (sound_submit workers work items).reaches reaches
  exact sound.outcome_eq (sound.ended positive final)

/-! ## Every schedule comes to an end -/

/-- How many more steps a task can make. -/
def Task.due (t : Task α ε β) : Nat :=
  match t.stage with
  | .waiting => 2
  | .running => 1
  | _ => 0

/-- How many more steps tasks can make. -/
def duties : List (Task α ε β) → Nat
  | [] => 0
  | t :: rest => t.due + duties rest

theorem duties_append_cons (front : List (Task α ε β)) (t : Task α ε β) (back : List (Task α ε β)) :
    duties (front ++ t :: back) = duties front + t.due + duties back := by
  induction front with
  | nil => rw [List.nil_append, duties, duties, Nat.zero_add]
  | cons first rest ih =>
      rw [List.cons_append, duties, duties, ih]
      omega

/-- A bound on the number of steps that are still to come. -/
def due (pool : Pool α ε β) : Nat :=
  duties pool.tasks + (pool.tasks.length - pool.drained.length) + if pool.raised.isNone then 1 else 0

theorem duties_cancel_le (tasks : List (Task α ε β)) :
    duties (tasks.map Task.cancel) ≤ duties tasks := by
  induction tasks with
  | nil => exact Nat.le_refl 0
  | cons t rest ih =>
      have first : t.cancel.due ≤ t.due := by
        rcases t with ⟨item, stage⟩
        cases stage <;> simp [Task.cancel, Task.due]
      exact Nat.add_le_add first ih

/-- Every step is one of those that were still to come. -/
theorem Step.due_lt (step : Step workers work pool next) : next.due < pool.due := by
  cases step with
  | start front item back drained raised =>
      simp [due, duties_append_cons, Task.due]
  | finish front item back drained raised =>
      simp [due, duties_append_cons, Task.due]
  | drain front item result back drained length =>
      simp [due]
      omega
  | raise front item error back drained length =>
      have bound := duties_cancel_le (front ++ ⟨item, .done (.error error)⟩ :: back)
      simp only [due, List.length_map, Option.isNone_some, Option.isNone_none]
      simp only [Bool.false_eq_true, if_false, if_true]
      omega

/-- Whatever has happened so far, the pool can come to its end. -/
theorem exists_final (workers : Nat) (work : α → Except ε β) (pool : Pool α ε β) :
    ∃ last, Reaches workers work pool last ∧ Final workers work last := by
  induction bound : pool.due using Nat.strongRecOn generalizing pool with
  | ind n ih =>
      subst n
      by_cases final : Final workers work pool
      · exact ⟨pool, .refl, final⟩
      · obtain ⟨next, step⟩ : ∃ next, Step workers work pool next := by
          simpa [Final] using final
        obtain ⟨last, reaches, lastFinal⟩ := ih next.due step.due_lt next rfl
        exact ⟨last, .head step reaches, lastFinal⟩

end Pool

end StringAudit
