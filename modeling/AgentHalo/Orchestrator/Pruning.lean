import AgentHalo.Lib.StableSort
import AgentHalo.Orchestrator.Task

/-!
# Which tasks pruning takes

Where too many tasks are left after the old ones, those with the lowest stamp go: a finished task is stamped when it ended, a
running one when it started, and a task that waits for its timer at zero. So a scheduled task goes before any finished one
(`crowded_not_kept`). `keepsLiveWork_iff` says when pruning keeps the live tasks.

The map lists its tasks in an order of its own, which decides between tasks of one stamp.
-/

namespace AgentHalo.Orchestrator

namespace Task

def Unfinished (task : Task) : Prop := task.status = .pending ∨ task.status = .running

instance (task : Task) : Decidable task.Unfinished := inferInstanceAs (Decidable (_ ∨ _))

/-- The stamp by which tasks are ordered. -/
def stamp (task : Task) : Nat := (task.completedAt.or task.startedAt).getD 0

end Task

namespace TaskTable

/-- `prune_tasks` on a map that lists its tasks in this order after the old ones are gone. -/
def pruneIn (order : List Task) (now : Nat) (tasks : TaskTable) : TaskTable :=
  let kept := tasks.filter (retained now)
  if kept.size ≤ maxTasksRetained then kept
  else
    let idsByAge := (order.map fun task => (task.taskId, task.stamp)).mergeSort fun a b => a.2 ≤ b.2
    evict idsByAge (kept.size - maxTasksRetained) kept

theorem prune_eq_pruneIn (now : Nat) (tasks : TaskTable) :
    prune now tasks = pruneIn (tasks.filter (retained now)).values now tasks := rfl

/-! ### Tables -/

variable {now : Nat} {tasks : TaskTable} {order : List Task} {id : String} {task : Task}

theorem mem_values : task ∈ tasks.values ↔ tasks.get? task.taskId = some task := by
  unfold KeyedMap.values KeyedMap.get?
  rw [List.mem_map]
  constructor
  · rintro ⟨⟨id, task⟩, hmem, rfl⟩
    have hlookup := Std.ExtTreeMap.mem_toList_iff_getElem?_eq_some.mp hmem
    have hid : task.taskId = id := tasks.keyed id task hlookup
    rwa [hid]
  · intro hlookup
    exact ⟨_, Std.ExtTreeMap.mem_toList_iff_getElem?_eq_some.mpr hlookup, rfl⟩

theorem nodup_map_values (tasks : TaskTable) : (tasks.values.map (·.taskId)).Nodup := by
  have hkeys : tasks.values.map (·.taskId) = tasks.map.toList.map (·.1) := by
    rw [KeyedMap.values, List.map_map]
    refine List.map_congr_left fun entry hentry => ?_
    exact tasks.keyed entry.1 entry.2 (Std.ExtTreeMap.mem_toList_iff_getElem?_eq_some.mp hentry)
  rw [hkeys, List.Nodup, List.pairwise_map]
  refine Std.ExtTreeMap.distinct_keys_toList.imp fun hne heq => hne ?_
  rw [heq]
  exact Std.ReflCmp.compare_self

theorem length_values (tasks : TaskTable) : tasks.values.length = tasks.size := by
  rw [KeyedMap.values, List.length_map, KeyedMap.size, Std.ExtTreeMap.length_toList]

theorem contains_eq (tasks : TaskTable) (id : String) : tasks.contains id = (tasks.get? id).isSome :=
  Std.ExtTreeMap.contains_eq_isSome_getElem?

theorem size_erase_of_contains (h : tasks.contains id) : (tasks.erase id).size + 1 = tasks.size := by
  have hpos : tasks.size ≠ 0 := by
    intro hzero
    have hempty : tasks.map = ∅ := Std.ExtTreeMap.eq_empty_iff_size_eq_zero.mpr hzero
    rw [KeyedMap.contains, hempty] at h
    simp at h
  have hsize : (tasks.erase id).size = if tasks.contains id then tasks.size - 1 else tasks.size :=
    Std.ExtTreeMap.size_erase
  rw [hsize, if_pos h]
  omega

theorem evict_spec (tasks : TaskTable) {ids : List (String × Nat)} {excess : Nat} (hnodup : (ids.map (·.1)).Nodup)
    (hmem : ∀ entry ∈ ids, tasks.contains entry.1) (hexcess : excess ≤ ids.length) :
    (∀ id, (evict ids excess tasks).get? id = if id ∈ (ids.take excess).map (·.1) then none else tasks.get? id) ∧
      (evict ids excess tasks).size + excess = tasks.size := by
  induction ids generalizing excess tasks with
  | nil =>
    obtain rfl := Nat.le_zero.mp hexcess
    exact ⟨fun id => (if_neg List.not_mem_nil).symm, rfl⟩
  | cons entry ids ih =>
    obtain ⟨id₀, ts⟩ := entry
    cases excess with
    | zero => exact ⟨fun id => (if_neg List.not_mem_nil).symm, rfl⟩
    | succ excess =>
      have hfirst : tasks.contains id₀ := hmem _ List.mem_cons_self
      obtain ⟨hnew, hnodup⟩ := List.nodup_cons.mp hnodup
      have hrest : ∀ entry ∈ ids, (tasks.erase id₀).contains entry.1 := by
        intro entry hentry
        have hne : id₀ ≠ entry.1 := by
          rintro rfl
          exact hnew (List.mem_map.mpr ⟨entry, hentry, rfl⟩)
        rw [contains_eq, KeyedMap.get?_erase, if_neg hne, ← contains_eq]
        exact hmem entry (List.mem_cons_of_mem _ hentry)
      obtain ⟨hget, hsize⟩ := ih (tasks.erase id₀) hnodup hrest (Nat.le_of_succ_le_succ hexcess)
      rw [evict, if_pos hfirst]
      refine ⟨fun id => ?_, ?_⟩
      · rw [hget, KeyedMap.get?_erase, List.take_succ_cons, List.map_cons]
        by_cases hid : id₀ = id
        · simp [hid]
        · simp [hid, Ne.symm hid]
      · rw [← size_erase_of_contains hfirst, ← hsize]
        omega

/-! ### Which tasks go -/

def byStamp (a b : Task) : Bool := a.stamp ≤ b.stamp

def excess (order : List Task) : Nat := order.length - maxTasksRetained

/-- The task is among the oldest, of which there are too many. -/
def Aged (order : List Task) (task : Task) : Prop := StableSort.rank byStamp order task < excess order

instance (order : List Task) (task : Task) : Decidable (Aged order task) := inferInstanceAs (Decidable (_ < _))

theorem byStamp_trans (a b c : Task) (hab : byStamp a b = true) (hbc : byStamp b c = true) : byStamp a c = true :=
  decide_eq_true ((of_decide_eq_true hab).trans (of_decide_eq_true hbc))

theorem byStamp_total (a b : Task) : (byStamp a b || byStamp b a) = true := by
  rw [Bool.or_eq_true]
  exact (Nat.le_total a.stamp b.stamp).imp decide_eq_true decide_eq_true

section Order

variable (horder : order.Perm (tasks.filter (retained now)).values)

include horder

theorem mem_order : task ∈ order ↔ tasks.get? task.taskId = some task ∧ retained now task = true := by
  rw [horder.mem_iff, mem_values, KeyedMap.get?_filter, Option.filter_eq_some_iff]

theorem length_order : order.length = (tasks.filter (retained now)).size := horder.length_eq.trans (length_values _)

theorem nodup_ids : (order.map (·.taskId)).Nodup := (horder.map _).nodup_iff.mpr (nodup_map_values _)

/-- **What pruning leaves**: the tasks that are retained and not aged, and no more than fit. -/
theorem pruneIn_spec :
    (∀ id task, (pruneIn order now tasks).get? id = some task ↔
      tasks.get? id = some task ∧ retained now task = true ∧ ¬ Aged order task) ∧
      (pruneIn order now tasks).size ≤ maxTasksRetained := by
  have hlength := length_order horder
  unfold pruneIn
  dsimp only
  split_ifs with hfits
  · refine ⟨fun id task => ?_, hfits⟩
    have hnone : ¬ Aged order task := by
      unfold Aged excess
      omega
    rw [KeyedMap.get?_filter, Option.filter_eq_some_iff]
    exact and_congr_right fun _ => (and_iff_left hnone).symm
  · have hsorted : (order.map fun task => (task.taskId, task.stamp)).mergeSort (fun a b => decide (a.2 ≤ b.2)) =
        (order.mergeSort byStamp).map fun task => (task.taskId, task.stamp) := by
      refine (List.map_mergeSort ?_).symm
      exact fun _ _ _ _ => rfl
    rw [hsorted]
    have hids : ((order.mergeSort byStamp).map fun task => (task.taskId, task.stamp)).map (·.1) =
        (order.mergeSort byStamp).map (·.taskId) := List.map_map
    have hnodup : (((order.mergeSort byStamp).map fun task => (task.taskId, task.stamp)).map (·.1)).Nodup := by
      rw [hids]
      exact ((List.mergeSort_perm order byStamp).map _).nodup_iff.mpr (nodup_ids horder)
    have hmem : ∀ entry ∈ (order.mergeSort byStamp).map fun task => (task.taskId, task.stamp),
        (tasks.filter (retained now)).contains entry.1 := by
      intro entry hentry
      obtain ⟨task, htask, rfl⟩ := List.mem_map.mp hentry
      rw [contains_eq, mem_values.mp (horder.mem_iff.mp (List.mem_mergeSort.mp htask))]
      rfl
    have hexcess : (tasks.filter (retained now)).size - maxTasksRetained ≤
        ((order.mergeSort byStamp).map fun task => (task.taskId, task.stamp)).length := by
      rw [List.length_map, List.length_mergeSort, hlength]
      exact Nat.sub_le _ _
    obtain ⟨hget, hsize⟩ := evict_spec _ hnodup hmem hexcess
    refine ⟨fun id task => ?_, by omega⟩
    have hkept : (tasks.filter (retained now)).get? id = some task ↔
        tasks.get? id = some task ∧ retained now task = true := by
      rw [KeyedMap.get?_filter, Option.filter_eq_some_iff]
    have hgone : (tasks.filter (retained now)).get? id = some task →
        (id ∈ (((order.mergeSort byStamp).map fun task => (task.taskId, task.stamp)).take
          ((tasks.filter (retained now)).size - maxTasksRetained)).map (·.1) ↔ Aged order task) := by
      intro hlookup
      have hid : task.taskId = id := KeyedMap.key_of_get? hlookup
      have htask : task ∈ order := by
        rw [horder.mem_iff, mem_values, hid]
        exact hlookup
      unfold Aged excess
      rw [hlength, ← StableSort.mem_take_mergeSort_iff byStamp_trans byStamp_total (nodup_ids horder).of_map htask,
        ← List.map_take, List.map_map, List.mem_map]
      constructor
      · rintro ⟨other, hother, hid'⟩
        have hin := List.mem_mergeSort.mp (List.mem_of_mem_take hother)
        have hsame : other = task := List.inj_on_of_nodup_map (nodup_ids horder) hin htask (hid'.trans hid.symm)
        exact hsame ▸ hother
      · exact fun htake => ⟨task, htake, hid⟩
    rw [hget]
    refine Iff.trans ?_ ((and_congr_left' hkept).trans and_assoc)
    split_ifs with hmem
    · refine iff_of_false not_false ?_
      rintro ⟨hlookup, hstays⟩
      exact hstays ((hgone hlookup).mp hmem)
    · exact (and_iff_left_of_imp fun hlookup haged => hmem ((hgone hlookup).mpr haged)).symm

end Order

/-! ### Live work -/

/-- No unfinished task goes while a finished one stays, nothing goes from a small table of fresh tasks, and no more tasks are
left than may be retained unless more are unfinished. -/
structure KeepsLiveWork (now : Nat) (tasks after : TaskTable) : Prop where
  live : ∀ id task, tasks.get? id = some task → task.Unfinished → after.get? id = none →
    ∀ id' other, after.get? id' = some other → other.Unfinished
  quiet : tasks.size ≤ maxTasksRetained →
    (∀ id task, tasks.get? id = some task → ¬ task.Unfinished → retained now task = true) →
    ∀ id, after.get? id = tasks.get? id
  bounded : after.size ≤ maxTasksRetained ∨ maxTasksRetained < tasks.values.countP fun task => task.Unfinished

/-- All finished tasks that are retained are among the oldest. -/
def AgedFinished (order : List Task) : Prop := ∀ task ∈ order, ¬ task.Unfinished → Aged order task

/-- The stamps spare the unfinished tasks. -/
structure SparesUnfinished (now : Nat) (tasks : TaskTable) (order : List Task) : Prop where
  /-- No unfinished task is among the oldest, of which there are too many, unless all finished ones are. -/
  aged : ∀ task ∈ order, task.Unfinished → Aged order task → AgedFinished order
  /-- A task that runs again after it ended has a completion time, which is not old or meets no finished task. -/
  expired : ∀ id task, tasks.get? id = some task → task.Unfinished → retained now task = false →
    AgedFinished order ∧ (maxTasksRetained < tasks.size ∨
      ∃ id' other, tasks.get? id' = some other ∧ ¬ other.Unfinished ∧ retained now other = false)

theorem size_filter_le (p : Task → Bool) (tasks : TaskTable) : (tasks.filter p).size ≤ tasks.size :=
  Std.ExtTreeMap.size_filter_le_size

section Order

variable (horder : order.Perm (tasks.filter (retained now)).values)

include horder

theorem get?_pruneIn_eq_none_iff (htask : tasks.get? id = some task) :
    (pruneIn order now tasks).get? id = none ↔ retained now task = true → Aged order task := by
  obtain ⟨hleft, -⟩ := pruneIn_spec horder
  rw [Option.eq_none_iff_forall_ne_some]
  constructor
  · intro hnone hretained
    by_contra hyoung
    exact hnone task ((hleft id task).mpr ⟨htask, hretained, hyoung⟩)
  · intro haged other hother
    obtain ⟨hlookup, hretained, hyoung⟩ := (hleft id other).mp hother
    obtain rfl := Option.some.inj (htask.symm.trans hlookup)
    exact hyoung (haged hretained)

theorem agedFinished_iff :
    AgedFinished order ↔ ∀ id other, (pruneIn order now tasks).get? id = some other → other.Unfinished := by
  obtain ⟨hleft, -⟩ := pruneIn_spec horder
  constructor
  · intro haged id other hother
    obtain ⟨hlookup, hretained, hyoung⟩ := (hleft id other).mp hother
    have hid : other.taskId = id := KeyedMap.key_of_get? hlookup
    by_contra hfinished
    exact hyoung (haged other ((mem_order horder).mpr ⟨hid.symm ▸ hlookup, hretained⟩) hfinished)
  · intro hunfinished other hmem hfinished
    obtain ⟨hlookup, hretained⟩ := (mem_order horder).mp hmem
    by_contra hyoung
    exact hfinished (hunfinished _ other ((hleft _ other).mpr ⟨hlookup, hretained, hyoung⟩))

/-- **When pruning keeps live work**: when the stamps spare the unfinished tasks. -/
theorem keepsLiveWork_iff : KeepsLiveWork now tasks (pruneIn order now tasks) ↔ SparesUnfinished now tasks order := by
  obtain ⟨hleft, hbounded⟩ := pruneIn_spec horder
  constructor
  · intro h
    have hlive : ∀ id task, tasks.get? id = some task → task.Unfinished → (retained now task = true → Aged order task) →
        AgedFinished order := fun id task htask hunfinished hgone =>
      (agedFinished_iff horder).mpr (h.live id task htask hunfinished ((get?_pruneIn_eq_none_iff horder htask).mpr hgone))
    refine ⟨fun task hmem hunfinished haged => ?_, fun id task htask hunfinished hold => ⟨?_, ?_⟩⟩
    · exact hlive _ task ((mem_order horder).mp hmem).1 hunfinished fun _ => haged
    · exact hlive id task htask hunfinished fun hretained => absurd hretained (by rw [hold]; exact Bool.false_ne_true)
    · by_contra hcontra
      obtain ⟨hsmall, hfresh⟩ := not_or.mp hcontra
      have hsame := h.quiet (Nat.not_lt.mp hsmall) (fun id' other hother hfinished => ?_) id
      · rw [htask, hleft, hold] at hsame
        exact Bool.false_ne_true hsame.2.1
      · by_contra hold'
        exact hfresh ⟨id', other, hother, hfinished, Bool.not_eq_true _ ▸ hold'⟩
  · intro h
    refine ⟨fun id task htask hunfinished hgone => (agedFinished_iff horder).mp ?_, fun hsmall hfresh id => ?_, .inl hbounded⟩
    · have haged := (get?_pruneIn_eq_none_iff horder htask).mp hgone
      by_cases hretained : retained now task = true
      · have hid : task.taskId = id := KeyedMap.key_of_get? htask
        exact h.aged task ((mem_order horder).mpr ⟨hid.symm ▸ htask, hretained⟩) hunfinished (haged hretained)
      · exact (h.expired id task htask hunfinished (Bool.not_eq_true _ ▸ hretained)).1
    · have hyoung : ∀ task, ¬ Aged order task := by
        intro task
        have hsize := size_filter_le (retained now) tasks
        have hlength := length_order horder
        unfold Aged excess
        omega
      refine Option.ext fun task => ?_
      rw [hleft]
      refine and_iff_left_of_imp fun htask => ⟨?_, hyoung task⟩
      by_contra hold
      by_cases hunfinished : task.Unfinished
      · obtain ⟨-, hlarge | ⟨id', other, hother, hfinished, hold'⟩⟩ :=
          h.expired id task htask hunfinished (Bool.not_eq_true _ ▸ hold)
        · exact absurd hsmall (Nat.not_le.mpr hlarge)
        · rw [hfresh id' other hother hfinished] at hold'
          cases hold'
      · exact hold (hfresh id task htask hunfinished)

end Order

namespace Sample

def sampleId (i : Nat) : String :=
  "task-1700000000-" ++ Text.hexEncode [0, 0, UInt8.ofNat (i / 256), UInt8.ofNat (i % 256)]

def endedTask (i : Nat) : Task :=
  ((Task.create (sampleId i) "agent" "prompt").markRunning 1700000000).markComplete 1700000060 "done" 0 .empty none

def scheduledTask (i : Nat) : Task := Task.create (sampleId i) "agent" "prompt"

def endedTasks (n : Nat) : TaskTable := (List.range n).foldl (fun tasks i => tasks.put (endedTask i)) .empty

/-- As many tasks have ended as are retained, and one more is scheduled. -/
def crowded : TaskTable := (endedTasks maxTasksRetained).put (scheduledTask maxTasksRetained)

theorem sampleId_inj {i j : Nat} (hi : i ≤ maxTasksRetained) (hj : j ≤ maxTasksRetained) (h : sampleId i = sampleId j) :
    i = j := by
  have hbytes := Text.hexEncode_inj ((String.append_right_inj _).mp h)
  simp only [List.cons.injEq, true_and, and_true] at hbytes
  obtain ⟨hhigh, hlow⟩ := hbytes
  have hhigh := congrArg UInt8.toNat hhigh
  have hlow := congrArg UInt8.toNat hlow
  have hmax : maxTasksRetained = 2000 := rfl
  simp only [UInt8.toNat_ofNat'] at hhigh hlow
  omega

theorem endedTasks_succ (n : Nat) : endedTasks (n + 1) = (endedTasks n).put (endedTask n) := by
  rw [endedTasks, List.range_succ, List.foldl_concat]
  rfl

theorem get?_endedTasks {n : Nat} (hn : n ≤ maxTasksRetained) (id : String) (task : Task) :
    (endedTasks n).get? id = some task ↔ ∃ i < n, id = sampleId i ∧ task = endedTask i := by
  induction n with
  | zero => simp [endedTasks]
  | succ n ih =>
    have hid : (endedTask n).taskId = sampleId n := rfl
    rw [endedTasks_succ, KeyedMap.get?_put, hid]
    split_ifs with hsame
    · subst hsame
      constructor
      · intro h
        exact ⟨n, Nat.lt_succ_self n, rfl, (Option.some.inj h).symm⟩
      · rintro ⟨i, hlt, hi, rfl⟩
        rw [sampleId_inj (by omega) (by omega) hi]
    · rw [ih (Nat.le_of_succ_le hn)]
      constructor
      · rintro ⟨i, hi, hrest⟩
        exact ⟨i, Nat.lt_succ_of_lt hi, hrest⟩
      · rintro ⟨i, hi, rfl, htask⟩
        refine ⟨i, Nat.lt_of_le_of_ne (Nat.le_of_lt_succ hi) ?_, rfl, htask⟩
        rintro rfl
        exact hsame rfl

theorem get?_endedTasks_fresh {n : Nat} (hn : n ≤ maxTasksRetained) : (endedTasks n).get? (sampleId n) = none := by
  rw [Option.eq_none_iff_forall_ne_some]
  intro task htask
  obtain ⟨i, hi, hid, -⟩ := (get?_endedTasks hn _ task).mp htask
  rw [sampleId_inj hn (by omega) hid] at hi
  exact Nat.lt_irrefl i hi

theorem size_put_of_fresh (tasks : TaskTable) (task : Task) (h : tasks.get? task.taskId = none) :
    (tasks.put task).size = tasks.size + 1 := by
  have hsize : (tasks.put task).size = if tasks.contains task.taskId then tasks.size else tasks.size + 1 :=
    Std.ExtTreeMap.size_insert
  rw [hsize, contains_eq, h]
  rfl

theorem size_endedTasks {n : Nat} (hn : n ≤ maxTasksRetained) : (endedTasks n).size = n := by
  induction n with
  | zero => rfl
  | succ n ih =>
    have hn' := Nat.le_of_succ_le hn
    rw [endedTasks_succ, size_put_of_fresh _ _ (get?_endedTasks_fresh hn'), ih hn']

theorem get?_crowded (id : String) (task : Task) : crowded.get? id = some task ↔
    (∃ i < maxTasksRetained, id = sampleId i ∧ task = endedTask i) ∨
      id = sampleId maxTasksRetained ∧ task = scheduledTask maxTasksRetained := by
  have hid : (scheduledTask maxTasksRetained).taskId = sampleId maxTasksRetained := rfl
  rw [crowded, KeyedMap.get?_put, hid, ← get?_endedTasks le_rfl]
  split_ifs with hsame
  · subst hsame
    rw [get?_endedTasks_fresh le_rfl, Option.some.injEq]
    simp [eq_comm]
  · exact (or_iff_left fun h => hsame h.1.symm).symm

theorem size_crowded : crowded.size = maxTasksRetained + 1 := by
  have hfresh : (endedTasks maxTasksRetained).get? (scheduledTask maxTasksRetained).taskId = none :=
    get?_endedTasks_fresh le_rfl
  rw [crowded, size_put_of_fresh _ _ hfresh, size_endedTasks le_rfl]

theorem retained_crowded {id : String} {task : Task} (h : crowded.get? id = some task) : retained 1700000060 task = true := by
  obtain ⟨i, -, -, rfl⟩ | ⟨-, rfl⟩ := (get?_crowded id task).mp h
  · rfl
  · rfl

theorem size_filter_crowded : (crowded.filter (retained 1700000060)).size = maxTasksRetained + 1 := by
  have hmap : (crowded.filter (retained 1700000060)).map = crowded.map := by
    refine Std.ExtTreeMap.ext_getElem? fun {id} => ?_
    change (crowded.filter (retained 1700000060)).get? id = crowded.get? id
    rw [KeyedMap.get?_filter]
    cases htask : crowded.get? id with
    | none => rfl
    | some task => rw [Option.filter_some, retained_crowded htask, if_pos rfl]
  rw [← size_crowded, KeyedMap.size, KeyedMap.size, hmap]

end Sample

open Sample in
/-- A scheduled task goes although two thousand finished ones stay. -/
theorem crowded_not_kept : ¬ KeepsLiveWork 1700000060 crowded (prune 1700000060 crowded) := by
  rw [prune_eq_pruneIn]
  generalize hlisted : (crowded.filter (retained 1700000060)).values = order
  have horder : order.Perm (crowded.filter (retained 1700000060)).values := hlisted ▸ .refl _
  have hscheduled : crowded.get? (sampleId maxTasksRetained) = some (scheduledTask maxTasksRetained) :=
    (get?_crowded _ _).mpr (.inr ⟨rfl, rfl⟩)
  have hended : crowded.get? (sampleId 0) = some (endedTask 0) :=
    (get?_crowded _ _).mpr (.inl ⟨0, by decide, rfl, rfl⟩)
  have hstamp : ∀ i, (endedTask i).stamp = 1700000060 := fun _ => rfl
  have hexcess : excess order = 1 := by
    rw [excess, length_order horder, size_filter_crowded]
    omega
  -- the scheduled task has the lowest stamp, so that nothing comes before it
  have hgoes : Aged order (scheduledTask maxTasksRetained) := by
    have hzero : StableSort.rank byStamp order (scheduledTask maxTasksRetained) = 0 := by
      refine List.countP_eq_zero.mpr fun task htask hbefore => ?_
      obtain ⟨hle, hidx⟩ := StableSort.before_iff.mp hbefore
      obtain ⟨hlookup, -⟩ := (mem_order horder).mp htask
      obtain ⟨i, -, -, rfl⟩ | ⟨-, rfl⟩ := (get?_crowded _ _).mp hlookup
      · exact absurd (of_decide_eq_true hle) (by rw [hstamp]; decide)
      · exact absurd (hidx (decide_eq_true le_rfl)) (Nat.lt_irrefl _)
    rw [Aged, hzero, hexcess]
    exact Nat.zero_lt_one
  have hstays : ¬ Aged order (endedTask 0) := by
    have hpos : 0 < StableSort.rank byStamp order (endedTask 0) := by
      refine List.countP_pos_iff.mpr ⟨scheduledTask maxTasksRetained, ?_, StableSort.before_iff.mpr ⟨?_, fun hle => ?_⟩⟩
      · exact (mem_order horder).mpr ⟨hscheduled, rfl⟩
      · exact decide_eq_true (Nat.zero_le _)
      · exact absurd (of_decide_eq_true hle) (by rw [hstamp]; decide)
    rw [Aged, hexcess]
    omega
  intro h
  have hnone := (get?_pruneIn_eq_none_iff horder hscheduled).mpr fun _ => hgoes
  have hsome := (pruneIn_spec horder).1 (sampleId 0) (endedTask 0) |>.mpr ⟨hended, rfl, hstays⟩
  exact absurd (h.live _ _ hscheduled (.inl rfl) hnone _ _ hsome) (by decide)

open Sample in
theorem keepsLiveWork_iff_crowded : KeepsLiveWork 1700000060 crowded (prune 1700000060 crowded) ↔
    SparesUnfinished 1700000060 crowded (crowded.filter (retained 1700000060)).values := by
  rw [prune_eq_pruneIn]
  exact keepsLiveWork_iff (.refl _)

end TaskTable

end AgentHalo.Orchestrator
