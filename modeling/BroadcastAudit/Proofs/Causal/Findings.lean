import BroadcastAudit.Proofs.Causal.Judgement
import BroadcastAudit.Proofs.Readings

set_option autoImplicit false

namespace BroadcastAudit.Causal

open Replays

structure Finding where
  entry : Nat
  violation : Violation

def finding? (processCount : Nat) (stamps : Stamps) (process : ProcessId)
    (reading : List LogEntry × LogEntry) : Option Finding :=
  (violation? processCount stamps process reading).map (⟨reading.1.length, ·⟩)

def findingsIn (processCount : Nat) (stamps : Stamps) (process : ProcessId)
    (entries : List LogEntry) : List Finding :=
  (withPast entries).filterMap (finding? processCount stamps process)

def violationsOf (findings : List Finding) : List Violation :=
  findings.map (·.violation)

def foundWithin (count : Nat) (findings : List Finding) : List Finding :=
  findings.filter (·.entry < count)

section Findings

variable (processCount : Nat) (stamps : Stamps) (process : ProcessId)

theorem violationsOf_findingsIn (entries : List LogEntry) :
    violationsOf (findingsIn processCount stamps process entries) =
      violationsIn processCount stamps process entries := by
  rw [violationsOf, findingsIn, violationsIn, List.map_filterMap]
  refine List.filterMap_congr fun reading _ => ?_
  rw [finding?, Option.map_map]
  exact Option.map_id'

theorem findingsIn_append_singleton (read : List LogEntry) (entry : LogEntry) :
    findingsIn processCount stamps process (read ++ [entry]) =
      findingsIn processCount stamps process read ++
        (finding? processCount stamps process (read, entry)).toList := by
  cases found : finding? processCount stamps process (read, entry) <;> simp [findingsIn, found]

theorem mem_findingsIn (entries : List LogEntry) (finding : Finding) :
    finding ∈ findingsIn processCount stamps process entries ↔
      ∃ read entry, read ++ [entry] <+: entries ∧ read.length = finding.entry ∧
        violation? processCount stamps process (read, entry) = some finding.violation := by
  obtain ⟨position, violation⟩ := finding
  simp only [findingsIn, List.mem_filterMap, Prod.exists, mem_withPast, finding?,
    Option.map_eq_some_iff, Finding.mk.injEq]
  constructor
  next =>
    rintro ⟨read, entry, reads, _, violates, length, rfl⟩
    exact ⟨read, entry, reads, length, violates⟩
  next =>
    rintro ⟨read, entry, reads, length, violates⟩
    exact ⟨read, entry, reads, violation, violates, length, rfl⟩

theorem getElem?_of_mem_findingsIn {entries : List LogEntry} {finding : Finding}
    (found : finding ∈ findingsIn processCount stamps process entries) :
    entries[finding.entry]? =
      some ⟨finding.violation.line, .deliver finding.violation.message⟩ := by
  obtain ⟨read, entry, ⟨rest, rfl⟩, length, violates⟩ := (mem_findingsIn ..).1 found
  obtain ⟨-, rfl, -⟩ := (violation?_eq_some_iff ..).1 violates
  simp [← length]

theorem pairwise_findingsIn (entries : List LogEntry) :
    (findingsIn processCount stamps process entries).Pairwise
      fun finding later => finding.entry < later.entry := by
  rw [findingsIn, List.pairwise_filterMap]
  refine (pairwise_withPast entries).imp fun before finding found later laterFound => ?_
  obtain ⟨_, -, rfl⟩ := Option.map_eq_some_iff.1 found
  obtain ⟨_, -, rfl⟩ := Option.map_eq_some_iff.1 laterFound
  exact before

theorem foundWithin_findingsIn (read rest : List LogEntry) :
    foundWithin read.length (findingsIn processCount stamps process (read ++ rest)) =
      findingsIn processCount stamps process read := by
  induction rest using List.reverseRecOn with
  | nil =>
    rw [List.append_nil, foundWithin, List.filter_eq_self]
    intro finding found
    have here := getElem?_of_mem_findingsIn processCount stamps process found
    exact decide_eq_true (List.getElem?_eq_some_iff.1 here).1
  | append_singleton rest entry ih =>
    rw [← List.append_assoc, findingsIn_append_singleton, foundWithin, List.filter_append]
    rw [foundWithin] at ih
    rw [ih, finding?]
    cases violation? processCount stamps process (read ++ rest, entry) <;> simp

theorem violationsOf_foundWithin_subset (count : Nat) (findings : List Finding) :
    violationsOf (foundWithin count findings) ⊆ violationsOf findings :=
  (List.filter_sublist.map _).subset

end Findings

theorem violations_reportOf (config : Dependencies) (traces : List Trace) :
    (reportOf config traces).violations = traces.flatMap fun trace => violationsOf
      (findingsIn config.processCount (stampsOf config traces) trace.process trace.entries) := by
  simp only [violationsOf_findingsIn]
  exact List.flatMap_map ..

end BroadcastAudit.Causal
