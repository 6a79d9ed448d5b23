import BroadcastAudit.Proofs.Config.Rows
import BroadcastAudit.Proofs.Files.OutputLogs

set_option autoImplicit false

namespace BroadcastAudit

open Replays

namespace Outputs

def located (entries : List DirEntry) (process : ProcessId) : ProcessId × String :=
  (process, (after entries).files[process]?.getD "")

theorem located_of_mem {entries : List DirEntry} (nodup : (claimed entries).Nodup)
    {claim : ProcessId × String} (member : claim ∈ claims entries) :
    located entries claim.1 = claim := by
  rw [located, (getElem?_after entries nodup claim.1 claim.2).2 member]
  rfl

theorem pathOf_located {entries : List DirEntry} (nodup : (claimed entries).Nodup)
    {process : ProcessId} (member : process ∈ claimed entries) :
    (after entries).pathOf process = .ok (located entries process).2 := by
  obtain ⟨claim, found, rfl⟩ := List.mem_map.1 member
  rw [located_of_mem nodup found]
  exact (pathOf_after entries nodup _ _).2 found

theorem map_located {entries : List DirEntry} (nodup : (claimed entries).Nodup)
    {others : List (ProcessId × String)} (perm : (claims entries).Perm others) :
    (others.map Prod.fst).map (located entries) = others := by
  rw [List.map_map]
  refine (List.map_congr_left fun claim member => ?_).trans (List.map_id _)
  exact located_of_mem nodup (perm.mem_iff.2 member)

theorem requireSize_eq_ok_iff (outputs : Outputs) (expected : Nat) (result : Unit) :
    outputs.requireSize expected = .ok result ↔ outputs.size = expected := by
  unfold requireSize
  split <;> simp_all

theorem claimed_perm_all_iff {entries : List DirEntry} (nodup : (claimed entries).Nodup)
    (processCount : Nat) :
    (claimed entries).Perm (ProcessId.all processCount) ↔
      (after entries).size = processCount ∧
        ∀ process ∈ ProcessId.all processCount, process ∈ claimed entries := by
  have length : (claimed entries).length = (after entries).size := by
    rw [size_after entries nodup, claimed, List.length_map]
  rw [perm_iff_of_nodup (ProcessId.nodup_all processCount), length, ProcessId.length_all]

end Outputs

namespace FileSystem

variable (files : FileSystem)

theorem read_located_iff {entries : List DirEntry} (nodup : (Outputs.claimed entries).Nodup)
    (process : ProcessId) (trace : Trace) :
    ((Outputs.after entries).pathOf process >>= files.readTrace process) = .ok trace ↔
      process ∈ Outputs.claimed entries ∧ files.Logs (Outputs.located entries process) trace := by
  rw [bind_eq_ok_iff]
  constructor
  next =>
    rintro ⟨path, found, read⟩
    have claim := (Outputs.pathOf_after entries nodup process path).1 found
    refine ⟨List.mem_map_of_mem claim, ?_⟩
    rw [Logs, Outputs.located_of_mem nodup claim]
    exact read
  next =>
    intro known
    exact ⟨_, Outputs.pathOf_located nodup known.1, known.2⟩

theorem readRun_eq_ok_iff {dir configPath : String} {names : List String}
    (directory : files.find dir = .ok (.directory (.ok names))) (config : Dependencies)
    (traces : List Trace) :
    files.readRun dir configPath = .ok (config, traces) ↔
      files.readDependencies configPath = .ok config ∧
        Outputs.Visible (files.entries dir names) ∧ Outputs.Distinct (files.entries dir names) ∧
          (Outputs.claimed (files.entries dir names)).Perm (ProcessId.all config.processCount) ∧
            List.Forall₂ files.Logs ((ProcessId.all config.processCount).map
              (Outputs.located (files.entries dir names))) traces := by
  have read (nodup : (Outputs.claimed (files.entries dir names)).Nodup) (count : Nat) :
      ((ProcessId.all count).mapM fun process =>
          (Outputs.after (files.entries dir names)).pathOf process >>= files.readTrace process) =
        .ok traces ↔
      (∀ process ∈ ProcessId.all count, process ∈ Outputs.claimed (files.entries dir names)) ∧
        List.Forall₂ files.Logs ((ProcessId.all count).map
          (Outputs.located (files.entries dir names))) traces := by
    simp only [mapM_eq_ok_iff, files.read_located_iff nodup, List.forall₂_and_left,
      List.forall₂_map_left_iff]
  simp only [readRun, bind_eq_ok_iff, files.ofDir_eq_ofEntries directory,
    Outputs.ofEntries_eq_ok_iff, Outputs.requireSize_eq_ok_iff]
  constructor
  next =>
    rintro ⟨found, parsed, _, ⟨visible, distinct, rfl⟩, -, size, logs, mapped, eq⟩
    cases eq
    obtain ⟨each, logged⟩ := (read distinct.2 _).1 mapped
    exact ⟨parsed, visible, distinct,
      (Outputs.claimed_perm_all_iff distinct.2 _).2 ⟨size, each⟩, logged⟩
  next =>
    rintro ⟨parsed, visible, distinct, perm, logged⟩
    obtain ⟨size, each⟩ := (Outputs.claimed_perm_all_iff distinct.2 _).1 perm
    exact ⟨config, parsed, _, ⟨visible, distinct, rfl⟩, (), size, traces,
      (read distinct.2 _).2 ⟨each, logged⟩, rfl⟩

theorem processes_of_readRun {dir configPath : String} {config : Dependencies}
    {traces : List Trace} (read : files.readRun dir configPath = .ok (config, traces)) :
    traces.map (·.process) = ProcessId.all config.processCount := by
  simp only [readRun, bind_eq_ok_iff, mapM_eq_ok_iff] at read
  obtain ⟨_, -, outputs, -, -, -, _, logs, eq⟩ := read
  cases eq
  have same : List.Forall₂ Eq (ProcessId.all config.processCount) (traces.map (·.process)) := by
    refine List.forall₂_map_right_iff.2 (logs.imp fun process trace log => ?_)
    obtain ⟨path, -, found⟩ := log
    exact ((files.logs_iff (process, path) trace).1 found).1.symm
  rw [List.forall₂_eq_eq_eq] at same
  exact same.symm

theorem logs_located_iff {entries : List DirEntry} (nodup : (Outputs.claimed entries).Nodup)
    (processes : List ProcessId) (traces : List Trace) :
    (Outputs.claimed entries).Perm processes ∧
        List.Forall₂ files.Logs (processes.map (Outputs.located entries)) traces ↔
      traces.map (·.process) = processes ∧
        ∃ found, List.Forall₂ files.Logs (Outputs.claims entries) found ∧ found.Perm traces := by
  -- To read the files in another order is to order what was read.
  have swap : (∃ found, List.Forall₂ files.Logs (Outputs.claims entries) found ∧
        found.Perm traces) ↔
      ∃ claims, (Outputs.claims entries).Perm claims ∧ List.Forall₂ files.Logs claims traces :=
    iff_of_eq (congrFun (congrFun List.forall₂_comp_perm_eq_perm_comp_forall₂ _) _)
  rw [swap]
  constructor
  next =>
    rintro ⟨perm, logs⟩
    refine ⟨?_, _, ?_, logs⟩
    next =>
      rw [files.processes_of_logs logs, List.map_map]
      exact List.map_id _
    next =>
      rw [← Outputs.map_located nodup (List.Perm.refl _)]
      exact perm.map _
  next =>
    rintro ⟨rfl, claims, perm, logs⟩
    rw [files.processes_of_logs logs, Outputs.map_located nodup perm]
    exact ⟨perm.map _, logs⟩

theorem readRun_eq_ok_iff_readsAs {dir configPath : String} {names : List String}
    (directory : files.find dir = .ok (.directory (.ok names)))
    (visible : Outputs.Visible (files.entries dir names)) (config : Dependencies)
    (traces : List Trace) :
    files.readRun dir configPath = .ok (config, traces) ↔
      files.readDependencies configPath = .ok config ∧
        traces.map (·.process) = ProcessId.all config.processCount ∧
          ∃ found, List.Forall₂ (files.ReadsAs dir) (files.outputNames dir names) found ∧
            found.Perm traces := by
  rw [files.readRun_eq_ok_iff directory]
  refine and_congr_right fun parsed => ?_
  simp only [readDependencies, bind_eq_ok_iff] at parsed
  obtain ⟨text, -, parsed⟩ := parsed
  have small {found : List Trace} (perm : found.Perm traces)
      (inRun : traces.map (·.process) = ProcessId.all config.processCount) :
      ∀ trace ∈ found, trace.process.val < Numeral.limit := by
    intro trace member
    have known := List.mem_map_of_mem (f := (·.process)) (perm.mem_iff.1 member)
    rw [inRun, ProcessId.mem_all] at known
    exact Nat.lt_of_le_of_lt known (Dependencies.processCount_lt_limit _ parsed)
  constructor
  next =>
    rintro ⟨-, distinct, logs⟩
    obtain ⟨inRun, found, read, perm⟩ := (files.logs_located_iff distinct.2 _ _).1 logs
    refine ⟨inRun, found, ?_, perm⟩
    exact (files.forall₂_readsAs_iff dir names (small perm inRun)).2
      ⟨((files.distinct_entries_iff dir names).1 distinct).1, read⟩
  next =>
    rintro ⟨inRun, found, read, perm⟩
    obtain ⟨named, logs⟩ := (files.forall₂_readsAs_iff dir names (small perm inRun)).1 read
    have each : (Outputs.claimed (files.entries dir names)).Perm
        (ProcessId.all config.processCount) := by
      rw [← inRun, Outputs.claimed, ← files.processes_of_logs logs]
      exact perm.map _
    have nodup := each.nodup_iff.2 (ProcessId.nodup_all _)
    exact ⟨visible, (files.distinct_entries_iff dir names).2 ⟨named, nodup⟩,
      (files.logs_located_iff nodup _ _).2 ⟨inRun, found, logs, perm⟩⟩

end FileSystem

end BroadcastAudit
