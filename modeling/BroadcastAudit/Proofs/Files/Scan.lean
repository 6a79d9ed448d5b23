import BroadcastAudit.Proofs.Files.Enumeration
import Mathlib.Data.List.Pairwise

set_option autoImplicit false

namespace BroadcastAudit

open Replays

namespace Outputs

theorem Named.unique {name : String} {process other : ProcessId} (named : Named name process)
    (also : Named name other) : process = other := by
  obtain ⟨digits, eq, -, value⟩ := named
  obtain ⟨others, again, -, same⟩ := also
  rw [eq, List.append_left_inj] at again
  subst again
  exact ProcessId.ext_val (value.symm.trans same)

theorem ext_toList {outputs others : Outputs}
    (same : ∀ process path, (process, path) ∈ outputs.toList ↔ (process, path) ∈ others.toList) :
    outputs = others := by
  obtain ⟨files⟩ := outputs
  obtain ⟨found⟩ := others
  congr 1
  refine Std.ExtTreeMap.ext_getElem? fun process => Option.ext fun path => ?_
  simpa only [toList, Std.ExtTreeMap.mem_toList_iff_getElem?_eq_some] using same process path

end Outputs

namespace FileSystem

variable (files : FileSystem)

structure OneEach (dir : String) (names : List String) : Prop where
  found : ∀ name ∈ names, Outputs.isOutputName name = true →
    ∃ entry, files.find (Path.join dir name) = .ok entry
  named : ∀ name ∈ files.outputNames dir names,
    ∃ process : ProcessId, process.val < Numeral.limit ∧ Outputs.Named name process
  apart : ∀ name ∈ files.outputNames dir names, ∀ other ∈ files.outputNames dir names,
    ∀ process, Outputs.Named name process → Outputs.Named other process → name = other

def OutputAt (dir : String) (names : List String) (process : ProcessId) (path : String) : Prop :=
  ∃ name ∈ files.outputNames dir names, Outputs.Named name process ∧ path = Path.join dir name

structure Collects (dir : String) (names : List String) (outputs : Outputs) : Prop where
  listed : ∀ process path, (process, path) ∈ outputs.toList ↔ files.OutputAt dir names process path
  ascending : outputs.toList.Pairwise fun output next => output.1.val < next.1.val
  counted : ∀ expected, outputs.requireSize expected =
    if (files.outputNames dir names).length = expected then .ok ()
    else .error (.wrongOutputCount (files.outputNames dir names).length expected)
  known : ∀ process path,
    outputs.pathOf process = .ok path ↔ files.OutputAt dir names process path
  missing : ∀ process fault, outputs.pathOf process = .error fault ↔
    (∀ path, ¬ files.OutputAt dir names process path) ∧ fault = .noOutput process

structure Relisted (others : FileSystem) (dir : String) (names relisted : List String) : Prop where
  listed : others.find dir = .ok (.directory (.ok relisted))
  perm : relisted.Perm names
  same : ∀ name ∈ names, others.find (Path.join dir name) = files.find (Path.join dir name)

theorem mem_outputNames {dir name : String} {names : List String} :
    name ∈ files.outputNames dir names ↔
      name ∈ names ∧ Outputs.isOutputName name = true ∧
        files.isFile (Path.join dir name) = true := by
  rw [outputNames, List.mem_filter, Bool.and_eq_true]

section Claims

variable {dir : String} {names : List String}

theorem processOf?_of_mem {name : String} (member : name ∈ files.outputNames dir names)
    (process : ProcessId) :
    Outputs.processOf? name = some process ↔
      process.val < Numeral.limit ∧ Outputs.Named name process :=
  Outputs.processOf?_eq_some_iff name (files.mem_outputNames.1 member).2.1 process

theorem isSome_processOf?_iff :
    (∀ name ∈ files.outputNames dir names, (Outputs.processOf? name).isSome = true) ↔
      ∀ name ∈ files.outputNames dir names,
        ∃ process : ProcessId, process.val < Numeral.limit ∧ Outputs.Named name process := by
  refine forall₂_congr fun name member => ?_
  simp only [Option.isSome_iff_exists, files.processOf?_of_mem member]

theorem claimed_entries :
    Outputs.claimed (files.entries dir names) =
      (files.outputNames dir names).filterMap Outputs.processOf? := by
  rw [Outputs.claimed, claims_entries, List.map_filterMap]
  refine List.filterMap_congr fun name _ => ?_
  rw [Option.map_map]
  exact Option.map_id_apply

section Named

variable (named : ∀ name ∈ files.outputNames dir names,
  ∃ process : ProcessId, process.val < Numeral.limit ∧ Outputs.Named name process)

include named

-- Where all names denote, the bound on what they denote says nothing more.
theorem processOf?_eq_of_named {name : String} (member : name ∈ files.outputNames dir names)
    (process : ProcessId) :
    Outputs.processOf? name = some process ↔ Outputs.Named name process := by
  rw [files.processOf?_of_mem member]
  constructor
  next => exact And.right
  next =>
    intro denotes
    obtain ⟨other, small, also⟩ := named name member
    exact ⟨denotes.unique also ▸ small, denotes⟩

theorem nodup_claimed_iff (distinct : names.Nodup) :
    (Outputs.claimed (files.entries dir names)).Nodup ↔
      ∀ name ∈ files.outputNames dir names, ∀ other ∈ files.outputNames dir names,
        ∀ process, Outputs.Named name process → Outputs.Named other process → name = other := by
  have once : (files.outputNames dir names).Nodup := distinct.filter _
  have reads {name : String} (member : name ∈ files.outputNames dir names) {process : ProcessId} :
      Outputs.processOf? name = some process ↔ Outputs.Named name process :=
    files.processOf?_eq_of_named named member process
  rw [claimed_entries, List.Nodup, List.pairwise_filterMap]
  constructor
  next =>
    intro unequal name member other also process first second
    by_contra different
    have symmetric : Std.Symm fun name other : String =>
        ∀ p, Outputs.processOf? name = some p → ∀ q, Outputs.processOf? other = some q → p ≠ q :=
      ⟨fun _ _ unequal p first q second => (unequal q second p first).symm⟩
    exact unequal.forall member also different process ((reads member).2 first) process
      ((reads also).2 second) rfl
  next =>
    intro apart
    refine once.pairwise_of_forall_ne fun name member other also different p first q second => ?_
    rintro rfl
    exact different (apart name member other also p ((reads member).1 first)
      ((reads also).1 second))

end Named

variable {files} in
theorem OneEach.mem_claims (each : files.OneEach dir names) (process : ProcessId) (path : String) :
    (process, path) ∈ Outputs.claims (files.entries dir names) ↔
      files.OutputAt dir names process path := by
  rw [claims_entries, List.mem_filterMap, OutputAt]
  refine exists_congr fun name => and_congr_right fun member => ?_
  simp only [Option.map_eq_some_iff, files.processOf?_eq_of_named each.named member, Prod.mk.injEq]
  constructor
  next => exact fun ⟨_, named, same, eq⟩ => ⟨same ▸ named, eq.symm⟩
  next => exact fun ⟨named, eq⟩ => ⟨process, named, rfl, eq.symm⟩

theorem scannable_iff (distinct : names.Nodup) :
    Outputs.Visible (files.entries dir names) ∧ Outputs.Distinct (files.entries dir names) ↔
      files.OneEach dir names := by
  rw [visible_entries_iff, distinct_entries_iff, isSome_processOf?_iff]
  constructor
  next =>
    rintro ⟨found, named, nodup⟩
    exact ⟨found, named, (files.nodup_claimed_iff named distinct).1 nodup⟩
  next =>
    rintro ⟨found, named, apart⟩
    exact ⟨found, named, (files.nodup_claimed_iff named distinct).2 apart⟩

theorem length_claims_entries
    (named : ∀ name ∈ files.outputNames dir names, (Outputs.processOf? name).isSome = true) :
    (Outputs.claims (files.entries dir names)).length = (files.outputNames dir names).length := by
  rw [claims_entries, List.filterMap_length_eq_length]
  simpa only [Option.isSome_map] using named

theorem ofDir_eq_ok_iff (directory : files.find dir = .ok (.directory (.ok names)))
    (distinct : names.Nodup) (outputs : Outputs) :
    Outputs.ofDir files dir = .ok outputs ↔
      files.OneEach dir names ∧
        ∀ process path,
          (process, path) ∈ outputs.toList ↔ files.OutputAt dir names process path := by
  rw [files.ofDir_eq_ofEntries directory, Outputs.ofEntries_eq_ok_iff, ← and_assoc,
    files.scannable_iff distinct]
  refine and_congr_right fun each => ?_
  have nodup := (files.nodup_claimed_iff each.named distinct).2 each.apart
  have listed (process : ProcessId) (path : String) :
      (process, path) ∈ (Outputs.after (files.entries dir names)).toList ↔
        files.OutputAt dir names process path := by
    rw [← Outputs.pathOf_eq_ok_iff, Outputs.pathOf_after _ nodup, each.mem_claims]
  constructor
  next =>
    rintro rfl
    exact listed
  next =>
    intro same
    exact Outputs.ext_toList fun process path =>
      (listed process path).trans (same process path).symm

theorem collects_of_ofDir (directory : files.find dir = .ok (.directory (.ok names)))
    (distinct : names.Nodup) {outputs : Outputs} (scanned : Outputs.ofDir files dir = .ok outputs) :
    files.Collects dir names outputs := by
  obtain ⟨each, listed⟩ := (files.ofDir_eq_ok_iff directory distinct outputs).1 scanned
  have known (process : ProcessId) (path : String) :
      outputs.pathOf process = .ok path ↔ files.OutputAt dir names process path :=
    (outputs.pathOf_eq_ok_iff process path).trans (listed process path)
  have size : outputs.size = (files.outputNames dir names).length := by
    rw [files.ofDir_eq_ofEntries directory, Outputs.ofEntries_eq_ok_iff] at scanned
    obtain ⟨-, scannable, rfl⟩ := scanned
    obtain ⟨named, nodup⟩ := (files.distinct_entries_iff dir names).1 scannable
    rw [Outputs.size_after _ nodup, files.length_claims_entries named]
  refine ⟨listed, outputs.pairwise_toList, fun expected => ?_, known, fun process fault => ?_⟩
  next => rw [Outputs.requireSize, size]
  next =>
    simp only [← known]
    unfold Outputs.pathOf
    cases outputs.files[process]? <;> simp [eq_comm]

end Claims

section Relisting

variable {files} {others : FileSystem} {dir : String} {names relisted : List String}

theorem Relisted.mem_iff (again : files.Relisted others dir names relisted) (name : String) :
    name ∈ relisted ↔ name ∈ names :=
  again.perm.mem_iff

theorem Relisted.outputNames_perm (again : files.Relisted others dir names relisted) :
    (others.outputNames dir relisted).Perm (files.outputNames dir names) := by
  have kept : others.outputNames dir names = files.outputNames dir names := by
    refine List.filter_congr fun name member => ?_
    simp only [isFile, again.same name member]
  rw [← kept]
  exact again.perm.filter _

theorem Relisted.outputAt_iff (again : files.Relisted others dir names relisted)
    (process : ProcessId) (path : String) :
    others.OutputAt dir relisted process path ↔ files.OutputAt dir names process path := by
  simp only [OutputAt, again.outputNames_perm.mem_iff]

theorem Relisted.oneEach_iff (again : files.Relisted others dir names relisted) :
    others.OneEach dir relisted ↔ files.OneEach dir names := by
  have found : (∀ name ∈ relisted, Outputs.isOutputName name = true →
        ∃ entry, others.find (Path.join dir name) = .ok entry) ↔
      ∀ name ∈ names, Outputs.isOutputName name = true →
        ∃ entry, files.find (Path.join dir name) = .ok entry := by
    simp only [again.mem_iff]
    refine forall₂_congr fun name member => ?_
    rw [again.same name member]
  have members (name : String) :
      name ∈ others.outputNames dir relisted ↔ name ∈ files.outputNames dir names :=
    again.outputNames_perm.mem_iff
  constructor
  next =>
    intro ⟨each, named, apart⟩
    simp only [members] at named apart
    exact ⟨found.1 each, named, apart⟩
  next =>
    intro ⟨each, named, apart⟩
    simp only [← members] at named apart
    exact ⟨found.2 each, named, apart⟩

theorem Relisted.ofDir_eq_ok_iff (again : files.Relisted others dir names relisted)
    (directory : files.find dir = .ok (.directory (.ok names))) (distinct : names.Nodup)
    (outputs : Outputs) :
    Outputs.ofDir others dir = .ok outputs ↔ Outputs.ofDir files dir = .ok outputs := by
  rw [FileSystem.ofDir_eq_ok_iff others again.listed (again.perm.nodup_iff.2 distinct),
    FileSystem.ofDir_eq_ok_iff files directory distinct, again.oneEach_iff]
  simp only [again.outputAt_iff]

end Relisting

/-- A scan succeeds if each file that counts has a process of its own, and then finds each of these
files under its process. In whatever order the same names are listed, it finds the same. -/
theorem scan_in_any_order {dir : String} {names : List String}
    (directory : files.find dir = .ok (.directory (.ok names))) (distinct : names.Nodup) :
    ((∃ outputs, Outputs.ofDir files dir = .ok outputs) ↔ files.OneEach dir names) ∧
      (∀ outputs, Outputs.ofDir files dir = .ok outputs → files.Collects dir names outputs) ∧
        ∀ others relisted, files.Relisted others dir names relisted →
          ∀ outputs, Outputs.ofDir others dir = .ok outputs ↔
            Outputs.ofDir files dir = .ok outputs := by
  refine ⟨?_, fun outputs => files.collects_of_ofDir directory distinct,
    fun others relisted again => again.ofDir_eq_ok_iff directory distinct⟩
  rw [files.ofDir_eq_ofEntries directory]
  simp only [Outputs.ofEntries_eq_ok_iff, exists_and_left, exists_eq', and_true,
    files.scannable_iff distinct]

def listing (names : List String) : FileSystem :=
  let log : FileEntry := .file (.ok "b 1\n")
  .ofList [("run", .directory (.ok names)), ("run/01.output", log), ("run/10.output", log),
    ("run/2.output", log), ("run/old.output", .directory (.ok [])), ("run/notes", .other)]

theorem scan_in_any_order_shuffled :
    let names := ["10.output", "notes", "2.output", "old.output", "01.output"]
    let relisted := ["01.output", "2.output", "10.output", "old.output", "notes"]
    names.Nodup ∧ (listing names).Relisted (listing relisted) "run" names relisted ∧
      ∃ outputs, Outputs.ofDir (listing names) "run" = .ok outputs ∧
        Outputs.ofDir (listing relisted) "run" = .ok outputs ∧
          (listing names).Collects "run" names outputs ∧
            outputs.toList = [(.ofIndex 0, "run/01.output"), (.ofIndex 1, "run/2.output"),
              (.ofIndex 9, "run/10.output")] := by
  intro names relisted
  have directory : (listing names).find "run" = .ok (.directory (.ok names)) := rfl
  have distinct : names.Nodup := by decide
  have again : (listing names).Relisted (listing relisted) "run" names relisted := by
    refine ⟨rfl, by decide, ?_⟩
    simp only [names, List.forall_mem_cons]
    exact ⟨rfl, rfl, rfl, rfl, rfl, nofun⟩
  obtain ⟨-, collects, same⟩ := (listing names).scan_in_any_order directory distinct
  have scanned : (Outputs.ofDir (listing ["10.output", "notes", "2.output", "old.output",
      "01.output"]) "run").toOption.map Outputs.toList = some [(.ofIndex 0, "run/01.output"),
        (.ofIndex 1, "run/2.output"), (.ofIndex 9, "run/10.output")] := by
    decide +kernel
  change (Outputs.ofDir (listing names) "run").toOption.map Outputs.toList = _ at scanned
  cases found : Outputs.ofDir (listing names) "run" with
  | error fault =>
    rw [found] at scanned
    cases scanned
  | ok outputs =>
    rw [found] at scanned
    exact ⟨distinct, again, outputs, rfl, (same _ _ again outputs).2 found, collects outputs found,
      Option.some.inj scanned⟩

end FileSystem

end BroadcastAudit
