import BroadcastAudit.Proofs.Files.RunFiles
import BroadcastAudit.Proofs.Links.Runs

set_option autoImplicit false

namespace BroadcastAudit

open Replays

namespace FileSystem

variable (files : FileSystem)

/-- The files can be read, and they are those of an audit of links: one log for each host, where
only the receiver delivers, each message at most once, and the others only broadcast. -/
structure RecordsLinks (hosts config dir : String) (run : Links.Run) : Prop where
  hosts : files.readHosts hosts = .ok run.hosts
  config : files.readLinks config = .ok run.config
  receiver : run.config.receiver ∈ run.hosts.ids
  outputs : Outputs.ofDir files dir = .ok run.outputs
  processes : ∀ process, process ∈ run.outputs.files ↔ process ∈ run.hosts.ids
  logs : ∀ process ∈ run.hosts.ids, run.outputs.readLog files process = .ok (run.log process)
  sends : ∀ sender ∈ run.senders, (run.log sender).SendsOnly
  delivers : (run.log run.config.receiver).DeliversOnce

theorem readSenders_append_singleton (outputs : Outputs) (senders : List ProcessId)
    (last : ProcessId) :
    files.readSenders outputs (senders ++ [last]) = (do
      let sent ← files.readSenders outputs senders
      let log ← outputs.readLog files last
      return sent.assign last (← log.readSent)) := by
  simp [readSenders]

theorem readSenders_eq_ok_iff (outputs : Outputs) (log : ProcessId → LogFile)
    (senders : List ProcessId)
    (known : ∀ sender ∈ senders, ∀ file, outputs.readLog files sender = .ok file →
      file = log sender) (sent : MessageSets) :
    files.readSenders outputs senders = .ok sent ↔
      (∀ sender ∈ senders, outputs.readLog files sender = .ok (log sender) ∧
        (log sender).SendsOnly) ∧
        .ofSenders (fun sender => .ofList (log sender).sentSeqs) senders = sent := by
  induction senders using List.reverseRecOn generalizing sent with
  | nil => simp [readSenders, MessageSets.ofSenders, pure, Except.pure]
  | append_singleton senders last ih =>
    have before := ih fun sender member => known sender (List.mem_append_left _ member)
    have here := known last (List.mem_append_right _ (List.mem_singleton_self last))
    rw [readSenders_append_singleton]
    simp only [before, bind_eq_ok_iff, LogFile.readSent_eq_ok_iff, pure, Except.pure,
      Except.ok.injEq, MessageSets.ofSenders_append_singleton, List.forall_mem_append,
      List.forall_mem_singleton]
    constructor
    next =>
      rintro ⟨_, ⟨each, rfl⟩, file, read, _, ⟨sends, rfl⟩, rfl⟩
      obtain rfl := here file read
      exact ⟨⟨each, read, sends⟩, rfl⟩
    next =>
      rintro ⟨⟨each, read, sends⟩, rfl⟩
      exact ⟨_, ⟨each, rfl⟩, _, read, _, ⟨sends, rfl⟩, rfl⟩

def logOf (outputs : Outputs) (process : ProcessId) : LogFile :=
  match outputs.readLog files process with
  | .ok log => log
  | .error _ => ⟨"", ""⟩

theorem eq_logOf {outputs : Outputs} {process : ProcessId} {log : LogFile}
    (read : outputs.readLog files process = .ok log) : log = files.logOf outputs process := by
  rw [logOf, read]

theorem mem_files_of_readLog {outputs : Outputs} {process : ProcessId} {log : LogFile}
    (read : outputs.readLog files process = .ok log) : process ∈ outputs.files := by
  obtain ⟨path, found, -⟩ := (bind_eq_ok_iff ..).1 read
  by_contra missing
  rw [Outputs.pathOf, Std.ExtTreeMap.getElem?_eq_none missing] at found
  cases found

variable {files} {hosts config dir : String} {run : Links.Run}

theorem RecordsLinks.auditLinks_eq (records : files.RecordsLinks hosts config dir run) :
    files.auditLinks hosts config dir =
      (Links.checkSent run.deliveredSets run.sentSets).map
        fun _ => .ofSets run.sentSets run.deliveredSets := by
  have listed : run.hosts.contains run.config.receiver = true := by
    simpa [Hosts.contains] using records.receiver
  have size : run.outputs.requireSize run.hosts.size = .ok () := by
    rw [Outputs.requireSize_eq_ok_iff]
    exact ((run.outputs.mem_files_iff_of_nodup run.hosts.nodup).1 records.processes).1
  have sent : files.readSenders run.outputs run.senders = .ok run.sentSets := by
    have logs (sender : ProcessId) (member : sender ∈ run.senders) :=
      records.logs sender ((run.mem_senders sender).1 member).1
    refine (files.readSenders_eq_ok_iff _ run.log _ ?_ _).2 ⟨?_, rfl⟩
    next =>
      intro sender member file read
      rw [logs sender member] at read
      cases read
      rfl
    next => exact fun sender member => ⟨logs sender member, records.sends sender member⟩
  have delivered : (run.log run.config.receiver).readDelivered = .ok run.deliveredSets :=
    (LogFile.readDelivered_eq_ok_iff ..).2 ⟨records.delivers, rfl⟩
  rw [Links.Run.senders] at sent
  simp only [auditLinks, records.hosts, records.config, records.outputs,
    records.logs _ records.receiver, listed, size, sent, delivered, bind, Except.bind, if_true]
  cases Links.checkSent run.deliveredSets run.sentSets <;> rfl

theorem exists_recordsLinks {report : Links.Report}
    (audited : files.auditLinks hosts config dir = .ok report) :
    ∃ run, files.RecordsLinks hosts config dir run := by
  simp only [auditLinks, bind_eq_ok_iff] at audited
  obtain ⟨listed, hostsRead, links, configRead, audited⟩ := audited
  split at audited
  next receiver =>
    simp only [bind_eq_ok_iff, Outputs.requireSize_eq_ok_iff, LogFile.readDelivered_eq_ok_iff]
      at audited
    obtain ⟨outputs, scanned, -, size, sent, sendersRead, log, logRead, -, ⟨delivers, -⟩, -⟩ :=
      audited
    obtain rfl := files.eq_logOf logRead
    obtain ⟨senders, -⟩ := (files.readSenders_eq_ok_iff outputs (files.logOf outputs) _
      (fun _ _ _ => files.eq_logOf) sent).1 sendersRead
    have receiver : links.receiver ∈ listed.ids := by
      simpa [Hosts.contains] using receiver
    let run : Links.Run := ⟨listed, links, outputs, files.logOf outputs⟩
    have logs : ∀ process ∈ listed.ids,
        outputs.readLog files process = .ok (files.logOf outputs process) := by
      intro process member
      by_cases same : process = links.receiver
      next =>
        rw [same]
        exact logRead
      next => exact (senders process ((run.mem_senders process).2 ⟨member, same⟩)).1
    have processes := (outputs.mem_files_iff_of_nodup listed.nodup).2
      ⟨size, fun process member => files.mem_files_of_readLog (logs process member)⟩
    exact ⟨run, hostsRead, configRead, receiver, scanned, processes, logs,
      fun sender member => (senders sender member).2, delivers⟩
  next => cases audited

theorem RecordsLinks.noCreation_iff (records : files.RecordsLinks hosts config dir run) :
    (∃ report, files.auditLinks hosts config dir = .ok report) ↔ run.NoCreation := by
  have checked := Links.checkSent_eq_ok_iff run.deliveredSets run.sentSets ()
  simp only [run.contains_deliveredSets, run.contains_sentSets] at checked
  rw [records.auditLinks_eq, Links.Run.NoCreation, ← checked]
  cases Links.checkSent run.deliveredSets run.sentSets <;> simp [Except.map]

theorem RecordsLinks.report_eq (records : files.RecordsLinks hosts config dir run)
    {report : Links.Report} (audited : files.auditLinks hosts config dir = .ok report) :
    report = .ofSets run.sentSets run.deliveredSets := by
  rw [records.auditLinks_eq] at audited
  cases checked : Links.checkSent run.deliveredSets run.sentSets with
  | error fault =>
    rw [checked] at audited
    cases audited
  | ok result =>
    rw [checked] at audited
    cases audited
    rfl

theorem RecordsLinks.neverSent (records : files.RecordsLinks hosts config dir run)
    (created : ¬ run.NoCreation) :
    ∃ message, Message.Least run.Created message ∧
      files.auditLinks hosts config dir = .error (.neverSent message) := by
  have found := Links.checkSent_of_unsent run.deliveredSets run.sentSets
  simp only [run.contains_deliveredSets, run.contains_sentSets] at found
  obtain ⟨message, least, checked⟩ := found created
  refine ⟨message, least, ?_⟩
  rw [records.auditLinks_eq, checked]
  rfl

/-- The audit accepts the files that record a run in which nothing is delivered that was not sent.
It counts what was sent without repetitions, and names the least message that was not sent. -/
theorem links_accepts_iff (files : FileSystem) (hosts config dir : String) :
    ((∃ report, files.auditLinks hosts config dir = .ok report) ↔
        ∃ run, files.RecordsLinks hosts config dir run ∧ run.NoCreation) ∧
      ∀ run, files.RecordsLinks hosts config dir run →
        (∀ report, files.auditLinks hosts config dir = .ok report →
          report.senders + 1 = run.hosts.size ∧
            (∃ sent : Finset Message, (∀ message, message ∈ sent ↔ run.WasSent message) ∧
              report.sent = sent.card) ∧
              report.delivered = (run.log run.config.receiver).lines.length ∧
                report.delivered ≤ report.sent) ∧
          (¬ run.NoCreation → ∃ message, Message.Least run.Created message ∧
            files.auditLinks hosts config dir = .error (.neverSent message)) := by
  refine ⟨⟨?_, ?_⟩, fun run records => ⟨fun report audited => ?_, records.neverSent⟩⟩
  next =>
    intro ⟨report, audited⟩
    obtain ⟨run, records⟩ := exists_recordsLinks audited
    exact ⟨run, records, records.noCreation_iff.1 ⟨report, audited⟩⟩
  next => exact fun ⟨run, records, noCreation⟩ => records.noCreation_iff.2 noCreation
  next =>
    have noCreation := records.noCreation_iff.1 ⟨report, audited⟩
    rw [records.report_eq audited]
    dsimp only [Links.Report.ofSets]
    exact ⟨run.senders_sentSets records.receiver, run.exists_size_sentSets,
      run.size_deliveredSets records.delivers, run.size_deliveredSets_le noCreation⟩

def linkFiles : FileSystem :=
  .ofList [("hosts", .file (.ok "1 localhost 11001\n2 localhost 11002\n3 localhost 11003\n")),
    ("config", .file (.ok "2 1\n")),
    ("runs", .directory (.ok ["1.output", "2.output", "3.output"])),
    ("runs/1.output", .file (.ok "d 2 1\nd 3 1\nd 2 2\n")),
    ("runs/2.output", .file (.ok "b 1\nb 2\nb 2\n")),
    ("runs/3.output", .file (.ok "b 1\n"))]

-- Two messages that were not sent; the greater one was delivered first.
def forgedFiles : FileSystem :=
  .ofList [("hosts", .file (.ok "2 localhost 11002\n1 localhost 11001\n")),
    ("config", .file (.ok "1 1\n")),
    ("runs", .directory (.ok ["1.output", "2.output"])),
    ("runs/1.output", .file (.ok "d 3 1\nd 2 1\nd 2 7\n")),
    ("runs/2.output", .file (.ok "b 1\n"))]

def forgedEntries : List DirEntry :=
  forgedFiles.entries "runs" ["1.output", "2.output"]

def forgedRun : Links.Run where
  hosts := ⟨[.ofIndex 1, .ofIndex 0], by decide⟩
  config := ⟨1, .ofIndex 0⟩
  outputs := .after forgedEntries
  log process :=
    if process = .ofIndex 0 then ⟨"1.output", "d 3 1\nd 2 1\nd 2 7\n"⟩ else ⟨"2.output", "b 1\n"⟩

theorem recordsLinks_forged :
    forgedFiles.RecordsLinks "hosts" "config" "runs" forgedRun where
  hosts := by decide +kernel
  config := by decide +kernel
  receiver := by decide
  outputs := by
    have names : forgedFiles.readNames "runs" = .ok ["1.output", "2.output"] := by decide +kernel
    have faultless : firstError Outputs.entryFault? forgedEntries = none := by decide +kernel
    refine (bind_eq_ok_iff ..).2 ⟨_, names, (Outputs.ofEntries_eq_settle _).trans ?_⟩
    exact (settle_eq_ok_iff ..).2 ⟨faultless, rfl⟩
  processes := by
    intro process
    have claimed : Outputs.claimed forgedEntries = [.ofIndex 0, .ofIndex 1] := by decide +kernel
    rw [forgedRun, Outputs.mem_after, claimed]
    simp [or_comm]
  logs := by decide +kernel
  sends := by decide +kernel
  delivers := by decide +kernel

theorem links_accepts_iff_forged :
    (∃ run, linkFiles.RecordsLinks "hosts" "config" "runs" run ∧ run.NoCreation ∧
        run.hosts.size = 3 ∧ ∃ sent : Finset Message,
          (∀ message, message ∈ sent ↔ run.WasSent message) ∧ 3 = sent.card) ∧
      forgedFiles.RecordsLinks "hosts" "config" "runs" forgedRun ∧ ¬ forgedRun.NoCreation ∧
        Message.Least forgedRun.Created ⟨.ofIndex 1, 7⟩ := by
  constructor
  next =>
    have accepts := links_accepts_iff linkFiles "hosts" "config" "runs"
    have audited : linkFiles.auditLinks "hosts" "config" "runs" = .ok ⟨2, 3, 3⟩ := by
      decide +kernel
    obtain ⟨run, records, noCreation⟩ := accepts.1.1 ⟨_, audited⟩
    have reported := (accepts.2 run records).1 _ audited
    exact ⟨run, records, noCreation, reported.1.symm, reported.2.1⟩
  next =>
    have created : ¬ forgedRun.NoCreation := by
      intro noCreation
      have delivered : forgedRun.WasDelivered ⟨.ofIndex 1, 7⟩ :=
        (LogFile.mem_deliveredMessages ..).1 (by decide +kernel)
      have logged := (LogFile.mem_sentSeqs ..).2 (noCreation _ delivered).logged
      exact absurd logged (by decide +kernel)
    have audited : forgedFiles.auditLinks "hosts" "config" "runs" =
        .error (.neverSent ⟨.ofIndex 1, 7⟩) := by decide +kernel
    obtain ⟨message, least, failed⟩ :=
      ((links_accepts_iff forgedFiles "hosts" "config" "runs").2 forgedRun
        recordsLinks_forged).2 created
    rw [audited] at failed
    cases failed
    exact ⟨recordsLinks_forged, created, least⟩

end FileSystem

end BroadcastAudit
