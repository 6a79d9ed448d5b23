import BroadcastAudit.Proofs.Files.RunFiles

set_option autoImplicit false

namespace BroadcastAudit

open Replays

namespace ProcessId

def Ascending (processes : List ProcessId) : Prop :=
  processes.Pairwise fun p q => p.val < q.val

theorem ascending_all (count : Nat) : Ascending (all count) :=
  List.pairwise_map.2 (List.pairwise_lt_range.imp Nat.succ_lt_succ)

theorem Ascending.nodup {processes : List ProcessId} (ascending : Ascending processes) :
    processes.Nodup :=
  ascending.imp fun less same => Nat.ne_of_lt less (congrArg val same)

theorem Ascending.eq_of_mem_iff {first second : List ProcessId} (left : Ascending first)
    (right : Ascending second) (same : ∀ process, process ∈ first ↔ process ∈ second) :
    first = second :=
  List.Perm.eq_of_pairwise (fun _ _ _ _ less more => absurd less (Nat.lt_asymm more)) left right
    ((List.perm_ext_iff_of_nodup left.nodup right.nodup).2 same)

end ProcessId

namespace Outputs

variable (outputs : Outputs)

theorem ascending_keys : ProcessId.Ascending outputs.files.keys := by
  have keys := Std.ExtTreeMap.ordered_keys (t := outputs.files)
  exact keys.imp fun less => Nat.compare_eq_lt.1 less

theorem keys_eq : outputs.files.keys = outputs.toList.map Prod.fst :=
  Std.ExtTreeMap.map_fst_toList_eq_keys.symm

theorem pairwise_toList :
    outputs.toList.Pairwise fun output next => output.1.val < next.1.val := by
  have keys := outputs.ascending_keys
  rw [ProcessId.Ascending, keys_eq, List.pairwise_map] at keys
  exact keys

theorem mem_before_of_less {before after : List (ProcessId × String)}
    {output other : ProcessId × String} (split : outputs.toList = before ++ output :: after)
    (listed : other ∈ outputs.toList) (less : other.1.val < output.1.val) : other ∈ before := by
  have ascending := outputs.pairwise_toList
  rw [split, List.pairwise_append, List.pairwise_cons] at ascending
  obtain ⟨-, ⟨later, -⟩, -⟩ := ascending
  rw [split, List.mem_append, List.mem_cons] at listed
  rcases listed with inside | rfl | inside
  next => exact inside
  next => exact absurd less (Nat.lt_irrefl _)
  next => exact absurd less (Nat.lt_asymm (later other inside))

theorem keys_eq_all_iff (count : Nat) :
    outputs.files.keys = ProcessId.all count ↔
      outputs.size = count ∧ ∀ process ∈ ProcessId.all count, process ∈ outputs.files := by
  have counted := outputs.mem_files_iff_of_nodup (ProcessId.nodup_all count)
  rw [ProcessId.length_all] at counted
  rw [← counted]
  simp only [← Std.ExtTreeMap.mem_keys]
  constructor
  next => exact fun eq process => eq ▸ Iff.rfl
  next => exact outputs.ascending_keys.eq_of_mem_iff (ProcessId.ascending_all count)

theorem pathOf_eq_ok_iff (process : ProcessId) (path : String) :
    outputs.pathOf process = .ok path ↔ (process, path) ∈ outputs.toList := by
  rw [toList, Std.ExtTreeMap.mem_toList_iff_getElem?_eq_some, pathOf]
  cases outputs.files[process]? <;> simp

theorem mem_files_iff (process : ProcessId) :
    process ∈ outputs.files ↔ ∃ path, (process, path) ∈ outputs.toList := by
  rw [← Std.ExtTreeMap.mem_keys, keys_eq, List.mem_map]
  constructor
  next => exact fun ⟨(_, path), member, same⟩ => ⟨path, same ▸ member⟩
  next => exact fun ⟨path, member⟩ => ⟨(process, path), member, rfl⟩

theorem lt_limit_of_processOf? {name : String} {process : ProcessId}
    (named : processOf? name = some process) : process.val < Numeral.limit := by
  obtain ⟨n, read, positive⟩ := Option.bind_eq_some_iff.1 named
  rw [(ProcessId.ofNat?_eq_some_iff n process).1 positive]
  exact Numeral.lt_limit_of_read? _ n read

variable {outputs} in
theorem lt_limit_of_ofEntries {entries : List DirEntry} (found : ofEntries entries = .ok outputs) :
    ∀ process ∈ outputs.files, process.val < Numeral.limit := by
  obtain ⟨-, -, rfl⟩ := (ofEntries_eq_ok_iff ..).1 found
  intro process member
  rw [mem_after, claimed, List.mem_map] at member
  obtain ⟨claim, member, rfl⟩ := member
  obtain ⟨entry, -, added⟩ := List.mem_filterMap.1 member
  rw [claim?, Option.ite_none_right_eq_some, Option.map_eq_some_iff] at added
  obtain ⟨-, process, named, rfl⟩ := added
  exact lt_limit_of_processOf? named

theorem size_lt_limit {files : FileSystem} {dir : String}
    (scanned : ofDir files dir = .ok outputs) : outputs.size < Numeral.limit := by
  obtain ⟨names, -, found⟩ := (bind_eq_ok_iff ..).1 scanned
  have small := lt_limit_of_ofEntries found
  have subset : outputs.files.keys ⊆ ProcessId.all (Numeral.limit - 1) := by
    intro process member
    have known := Std.ExtTreeMap.mem_keys.1 member
    exact (ProcessId.mem_all ..).2 (Nat.le_sub_one_of_lt (small process known))
  have shorter := (List.subperm_of_subset outputs.ascending_keys.nodup subset).length_le
  rw [Std.ExtTreeMap.length_keys, ProcessId.length_all] at shorter
  have positive : 0 < Numeral.limit := by decide
  exact Nat.lt_of_le_sub_one positive shorter

end Outputs

namespace FileSystem

variable (files : FileSystem)

theorem mapM_readTrace_toList (outputs : Outputs) :
    (outputs.toList.mapM fun (process, path) => files.readTrace process path) =
      outputs.files.keys.mapM fun process =>
        outputs.pathOf process >>= files.readTrace process := by
  rw [outputs.keys_eq, List.mapM_map]
  refine mapM_congr fun (process, path) member => ?_
  have found := (outputs.pathOf_eq_ok_iff process path).2 member
  rw [Function.comp_apply, found]
  rfl

theorem auditFifo_eq {dir : String} {outputs : Outputs}
    (scanned : Outputs.ofDir files dir = .ok outputs) :
    files.auditFifo dir outputs.size =
      Fifo.Report.ofTraces <$>
        outputs.toList.mapM fun (process, path) => files.readTrace process path := by
  have size := (outputs.requireSize_eq_ok_iff outputs.size ()).2 rfl
  simp only [auditFifo, scanned, bind, Except.bind, size]
  rfl

end FileSystem

end BroadcastAudit
