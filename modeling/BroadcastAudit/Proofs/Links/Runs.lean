import BroadcastAudit.Config.Hosts
import BroadcastAudit.Config.Links
import BroadcastAudit.Files.Outputs
import BroadcastAudit.Proofs.Links.Logs

set_option autoImplicit false

namespace BroadcastAudit.Links

structure Run where
  hosts : Hosts
  config : LinksConfig
  outputs : Outputs
  log : ProcessId → LogFile

namespace Run

variable (run : Run)

def senders : List ProcessId :=
  run.hosts.ids.filter (· ≠ run.config.receiver)

structure WasSent (message : Message) : Prop where
  listed : message.sender ∈ run.hosts.ids
  sender : message.sender ≠ run.config.receiver
  logged : (run.log message.sender).Sends message.seq

def WasDelivered (message : Message) : Prop :=
  (run.log run.config.receiver).Delivers message

def NoCreation : Prop :=
  ∀ message, run.WasDelivered message → run.WasSent message

def Created (message : Message) : Prop :=
  run.WasDelivered message ∧ ¬ run.WasSent message

theorem mem_senders (process : ProcessId) :
    process ∈ run.senders ↔ process ∈ run.hosts.ids ∧ process ≠ run.config.receiver := by
  rw [senders, List.mem_filter, decide_eq_true_iff]

theorem wasSent_iff (message : Message) :
    run.WasSent message ↔
      message.sender ∈ run.senders ∧ (run.log message.sender).Sends message.seq := by
  rw [mem_senders]
  exact ⟨fun sent => ⟨⟨sent.listed, sent.sender⟩, sent.logged⟩,
    fun sent => ⟨sent.1.1, sent.1.2, sent.2⟩⟩

theorem length_senders (listed : run.config.receiver ∈ run.hosts.ids) :
    run.senders.length + 1 = run.hosts.size := by
  have erased : run.senders = run.hosts.ids.erase run.config.receiver := by
    rw [run.hosts.nodup.erase_eq_filter]
    exact List.filter_congr fun process _ => Bool.eq_iff_iff.2 (by simp)
  rw [erased, Hosts.size, List.length_erase_of_mem listed]
  have := List.length_pos_of_mem listed
  omega

def sentSets : MessageSets :=
  .ofSenders (fun sender => .ofList (run.log sender).sentSeqs) run.senders

def deliveredSets : MessageSets :=
  .ofMessages (run.log run.config.receiver).deliveredMessages

theorem contains_sentSets (message : Message) :
    run.sentSets.contains message = true ↔ run.WasSent message := by
  rw [sentSets, MessageSets.contains_ofSenders, Std.ExtTreeSet.mem_ofList,
    List.contains_iff_mem, LogFile.mem_sentSeqs, wasSent_iff]

theorem contains_deliveredSets (message : Message) :
    run.deliveredSets.contains message = true ↔ run.WasDelivered message := by
  rw [deliveredSets, MessageSets.contains_ofMessages, LogFile.mem_deliveredMessages, WasDelivered]

theorem senders_sentSets (listed : run.config.receiver ∈ run.hosts.ids) :
    run.sentSets.senders + 1 = run.hosts.size := by
  have nodup : run.senders.Nodup := run.hosts.nodup.filter _
  rw [sentSets, MessageSets.senders_ofSenders _ nodup, run.length_senders listed]

theorem exists_size_sentSets : ∃ sent : Finset Message,
    (∀ message, message ∈ sent ↔ run.WasSent message) ∧ run.sentSets.size = sent.card := by
  refine ⟨run.sentSets.messages.toFinset, fun message => ?_, (MessageSets.card_messages _).symm⟩
  rw [List.mem_toFinset, MessageSets.mem_messages, contains_sentSets]

theorem size_deliveredSets (once : (run.log run.config.receiver).DeliversOnce) :
    run.deliveredSets.size = (run.log run.config.receiver).lines.length := by
  have nodup := (LogFile.nodup_deliveredMessages_iff _).2 once.once
  rw [deliveredSets, MessageSets.size_eq_card (MessageSets.contains_ofMessages _),
    List.toFinset_card_of_nodup nodup, once.length_deliveredMessages]

theorem size_deliveredSets_le (noCreation : run.NoCreation) :
    run.deliveredSets.size ≤ run.sentSets.size := by
  apply MessageSets.size_le_size
  intro message
  rw [contains_deliveredSets, contains_sentSets]
  exact noCreation message

end Run

end BroadcastAudit.Links
