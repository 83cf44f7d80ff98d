import Parsar.Items.Stream

namespace Parsar.Items

open Turns

variable {J : Type}

def ItemKey.isInput : ItemKey → Bool
  | input _ | inputPart _ _ => true
  | message _ | legacyMessage | tool _ | result _ => false

/-- The keys of the items that get an output index. -/
def ItemKey.isOutput : ItemKey → Bool
  | message _ | legacyMessage | tool _ => true
  | input _ | inputPart _ _ | result _ => false

def ItemType.isTool : ItemType → Bool
  | commandExecution | mcpCall | functionCall | webSearchCall => true
  | message | functionCallOutput => false

def Item.Shaped (item : Item J) : Prop :=
  match item.id.key with
  | .input _ | .inputPart _ _ =>
    item.type = .message ∧ item.role = some .user ∧ item.status = .completed
  | .message _ | .legacyMessage =>
    item.type = .message ∧ item.role = some .assistant ∧
      ∃ text, item.content = [{ type := "output_text", text := some text }]
  | .tool _ => item.type.isTool = true
  | .result _ => item.type = .functionCallOutput ∧ item.status ≠ .inProgress

/-- The keys of the messages of the assistant. -/
def ItemKey.isText : ItemKey → Bool
  | message _ | legacyMessage => true
  | input _ | inputPart _ _ | tool _ | result _ => false

theorem deltaKey_isText (itemID : String) : (deltaKey itemID).isText = true := by
  rw [deltaKey]
  split <;> rfl

theorem Item.Shaped.text {item : Item J} (h : item.Shaped) (hkey : item.id.key.isText = true) :
    item.type = .message ∧ item.role = some .assistant ∧
      ∃ text, item.content = [{ type := "output_text", text := some text }] := by
  cases hk : item.id.key <;> simp_all [Item.Shaped, ItemKey.isText]

theorem Item.shaped_text {item : Item J} {text : String} (hkey : item.id.key.isText = true)
    (htype : item.type = .message) (hrole : item.role = some .assistant)
    (hcontent : item.content = [{ type := "output_text", text := some text }]) :
    item.Shaped := by
  cases hk : item.id.key <;> simp_all [Item.Shaped, ItemKey.isText]

inductive Projected (turn : TurnID) : Observation J → Update J → Prop
  | message {payload : Option InputMessage} {item : Item J} (hturn : item.id.turn = turn)
      (hkey : item.id.key.isInput = true) (htype : item.type = .message)
      (hrole : item.role = some .user) (hstatus : item.status = .completed) :
      Projected turn (.message payload) (.snapshot item false false)
  | delta (itemID text : String) :
      Projected turn (.delta itemID text)
        (.snapshot (Items.message turn (deltaKey itemID) .assistant text .inProgress) true false)
  | outputMessage {id name phase : String} {text : Option String} {status : ItemStatus}
      {append : Bool} (hstatus : outputStatus name = some status) (happend : append = text.isNone) :
      Projected turn (.outputMessage id name phase text)
        (.snapshot (outputItem turn id status phase text) append false)
  | final {o : Observation J} {text : String} {status : ItemStatus}
      (hfinal : o.finalText = some (text, status)) :
      Projected turn o (.snapshot (finalItem turn text status) false true)
  | tool {id stage : String} {n : ToolObservation J} {item : Item J}
      (hid : item.id = ⟨turn, .tool id⟩) (htype : item.type.isTool = true)
      (hstage : stage = "before" ↔ item.status = .inProgress)
      (hcommand : item.type = .commandExecution ↔ n.kind = "command")
      (houtput : item.type = .commandExecution → item.output = n.output) :
      Projected turn (.toolCall id stage (some n)) (.snapshot item false false)
  | result {id : String} {n : ToolObservation J} {item : Item J}
      (hid : item.id = ⟨turn, .result id⟩) (htype : item.type = .functionCallOutput)
      (hstatus : item.status ≠ .inProgress) :
      Projected turn (.toolCall id "after" (some n)) (.snapshot item false false)
  | commandOutput {id text : String} (htext : text ≠ "") :
      Projected turn (.commandOutput id text) (.commandOutput ⟨turn, .tool id⟩ text)

section Project

variable {turn : TurnID} {o : Observation J} {u : Update J} {updates : List (Update J)}

theorem projected_inputMessages {sequence : Nat} {payload : Option InputMessage}
    (hu : u ∈ inputMessages turn sequence payload) : Projected turn (.message payload) u := by
  match payload with
  | none => cases hu
  | some ⟨some text, _⟩ =>
    cases List.mem_singleton.1 hu
    exact .message rfl rfl rfl rfl rfl
  | some ⟨none, input⟩ =>
    simp only [inputMessages, List.mem_filterMap, Prod.exists] at hu
    obtain ⟨part, i, -, hpart⟩ := hu
    split at hpart
    · cases hpart
      exact .message rfl rfl rfl rfl rfl
    · cases hpart

theorem projected_toolKind {id stage : String} {status : ItemStatus} {n : ToolObservation J}
    (hstage : stage = "before" ↔ status = .inProgress)
    (h : projectToolKind turn id stage status n = .ok updates) (hu : u ∈ updates) :
    Projected turn (.toolCall id stage (some n)) u := by
  simp only [projectToolKind] at h
  split at h
  case h_1 hkind =>
    split at h
    · cases h
    · split at h
      · cases h
      · cases h
      · cases h
        cases List.mem_singleton.1 hu
        exact .tool rfl rfl hstage (by simp [hkind]) (fun _ => rfl)
  case h_2 hkind =>
    split at h
    · cases h
    · cases h
      cases List.mem_singleton.1 hu
      exact .tool rfl rfl hstage (by simp [hkind]) (fun h => by cases h)
  case h_3 hkind =>
    split at h
    · cases h
    · split at h
      · split at h
        · cases h
          rcases List.mem_cons.1 hu with rfl | hu
          · exact .tool rfl rfl hstage (by simp [hkind]) (fun h => by cases h)
          · cases List.mem_singleton.1 hu
            exact .result rfl rfl (fun hs => absurd (hstage.2 hs) (by decide))
        · cases h
      · cases h
        cases List.mem_singleton.1 hu
        exact .tool rfl rfl hstage (by simp [hkind]) (fun h => by cases h)
  case h_4 hkind =>
    have hcall : stage = "before" ↔
        (if status = .failed then ItemStatus.incomplete else status) = .inProgress := by
      rw [hstage]
      cases status <;> simp
    split at h
    · cases h
      cases List.mem_singleton.1 hu
      exact .tool rfl rfl hcall (by simp [hkind]) (fun h => by cases h)
    · split at h
      · cases h
        cases List.mem_singleton.1 hu
        exact .tool rfl rfl hcall (by simp [hkind]) (fun h => by cases h)
      · cases h
  case h_5 => cases h

theorem projected_tool {id stage : String} {n : Option (ToolObservation J)}
    (h : projectTool turn id stage n = .ok updates) (hu : u ∈ updates) :
    Projected turn (.toolCall id stage n) u := by
  simp only [projectTool] at h
  split at h
  · cases h
  · split at h
    · cases h
    · split at h
      · cases h
      · rename_i status _
        split at h
        · cases h
        · rename_i hstage
          refine projected_toolKind ?_ h hu
          cases status <;> by_cases hb : stage = "before" <;> simp_all

theorem projected_final {u : Update J} (hu : u ∈ projectFinal turn o.finalText) :
    Projected turn o u := by
  cases hfinal : o.finalText with
  | none =>
    rw [hfinal] at hu
    cases hu
  | some final =>
    rw [hfinal] at hu
    cases List.mem_singleton.1 hu
    exact .final hfinal

theorem projected_of_project {sequence : Nat} (h : project turn sequence o = .ok updates)
    (hu : u ∈ updates) : Projected turn o u := by
  cases o with
  | message payload =>
    cases h
    exact projected_inputMessages hu
  | delta itemID text =>
    cases h
    cases List.mem_singleton.1 hu
    exact .delta itemID text
  | outputMessage id name phase text =>
    simp only [project] at h
    split at h
    · cases h
    · rename_i status hstatus
      split at h
      · cases h
      · cases h
        cases List.mem_singleton.1 hu
        exact .outputMessage hstatus rfl
  | done | executionFailed | other =>
    cases h
    cases hu
  | cancelReceipt | executionCompleted | executionCancelled =>
    cases h
    exact projected_final hu
  | toolCall => exact projected_tool h hu
  | commandOutput id text =>
    simp only [project, projectCommandOutput] at h
    split at h
    · cases h
    · rename_i hempty
      cases h
      cases List.mem_singleton.1 hu
      exact .commandOutput (not_or.1 hempty).2
  | malformed => cases h

/-- The observations that may project more than one item. -/
def Observation.plural : Observation J → Bool
  | .message _ => true
  | .toolCall _ stage _ => stage = "after"
  | _ => false

theorem length_projectToolKind_le_one {id stage : String} {status : ItemStatus}
    {n : ToolObservation J} (hstage : stage ≠ "after")
    (h : projectToolKind turn id stage status n = .ok updates) : updates.length ≤ 1 := by
  simp only [projectToolKind] at h
  split at h
  case h_3 =>
    split at h
    · cases h
    · split at h
      · exact absurd rfl hstage
      · cases h
        simp
  all_goals
    repeat' split at h
    all_goals
      cases h
      try simp

theorem length_project_le_one {sequence : Nat} (h : project turn sequence o = .ok updates)
    (ho : o.plural = false) : updates.length ≤ 1 := by
  cases o with
  | message => cases ho
  | delta | done | executionFailed | other =>
    cases h
    simp
  | outputMessage =>
    simp only [project] at h
    split at h
    · cases h
    · split at h <;> cases h
      simp
  | cancelReceipt | executionCompleted | executionCancelled =>
    cases h
    simp only [projectFinal]
    split <;> simp
  | toolCall id stage n =>
    have hstage : stage ≠ "after" := by simpa [Observation.plural] using ho
    simp only [project, projectTool] at h
    split at h
    · cases h
    · repeat' split at h
      all_goals first | (cases h) | exact length_projectToolKind_le_one hstage h
  | commandOutput =>
    simp only [project, projectCommandOutput] at h
    split at h <;> cases h
    simp
  | malformed => cases h

theorem Projected.id_turn (h : Projected turn o u) : u.id.turn = turn := by
  cases h with
  | message hturn => exact hturn
  | delta | outputMessage | final | commandOutput => rfl
  | tool hid | result hid =>
    rw [Update.id, hid]

theorem Projected.shaped {item : Item J} {append legacy : Bool}
    (h : Projected turn o (.snapshot item append legacy)) : item.Shaped := by
  cases h with
  | @message payload _ _ =>
    simp only [Item.Shaped]
    split <;> simp_all [ItemKey.isInput]
  | delta itemID text => exact Item.shaped_text (deltaKey_isText itemID) rfl rfl rfl
  | outputMessage | final => exact ⟨rfl, rfl, _, rfl⟩
  | tool hid htype => simpa [Item.Shaped, hid] using htype
  | result hid htype hstatus => simpa [Item.Shaped, hid] using ⟨htype, hstatus⟩

theorem Projected.isOutput {item : Item J} {append legacy : Bool}
    (h : Projected turn o (.snapshot item append legacy)) :
    item.id.key.isOutput = (!o.isMessage && item.type != .functionCallOutput) := by
  cases h with
  | @message payload _ _ =>
    cases hk : item.id.key <;> simp_all [ItemKey.isInput, ItemKey.isOutput, Observation.isMessage]
  | delta itemID text =>
    simp only [deltaKey, Observation.isMessage]
    split <;> rfl
  | outputMessage => rfl
  | final hfinal => cases o <;> first | rfl | cases hfinal
  | tool =>
    cases ht : item.type <;> simp_all [ItemKey.isOutput, Observation.isMessage, ItemType.isTool]
  | result hid htype => simp [hid, htype, ItemKey.isOutput]

end Project

inductive Merged : Update J → Item J → Item J → Prop
  | kept (u : Update J) (previous : Item J) (hstatus : previous.status ≠ .inProgress) :
      Merged u previous previous
  | output {id : ItemID} {delta output : String} {previous : Item J}
      (htype : previous.type = .commandExecution) (hstatus : previous.status = .inProgress)
      (houtput : previous.output = none ∧ output = "" ∨ previous.output = some (.text output)) :
      Merged (.commandOutput id delta) previous
        { previous with output := some (.text (output ++ delta)) }
  | replaced {item previous : Item J} {legacy : Bool}
      (hmay : previous.status = .inProgress ∨ legacy = true ∧ previous.status = .incomplete) :
      Merged (.snapshot item false legacy) previous (item.inherit previous)
  | appended {item previous : Item J} {legacy : Bool} {before after : String}
      (hstatus : previous.status = .inProgress) (hbefore : previous.text? = some before)
      (hafter : item.text? = some after) :
      Merged (.snapshot item true legacy) previous
        { (item.inherit previous).setText (before ++ after) with
          phase := item.phase.or previous.phase }

theorem merged_of_merge {u : Update J} {previous item : Item J}
    (h : merge u (some previous) = .ok item) : Merged u previous item := by
  cases u with
  | commandOutput id delta =>
    simp only [merge, mergeCommandOutput] at h
    split at h
    · cases h
    · rename_i hid
      split at h
      · rename_i hstatus
        cases h
        exact .kept _ _ hstatus
      · rename_i hstatus
        have htype : previous.type = .commandExecution := not_not.1 (not_or.1 hid).2
        split at h
        · rename_i hnone
          cases h
          exact .output htype (not_not.1 hstatus) (.inl ⟨hnone, rfl⟩)
        · rename_i output hsome
          cases h
          exact .output htype (not_not.1 hstatus) (.inr hsome)
        · cases h
  | snapshot snapshot append legacy =>
    simp only [merge] at h
    split at h
    · rename_i hkeep
      cases h
      exact .kept _ _ hkeep.1
    · rename_i hmay
      split at h
      · rename_i happend
        subst happend
        split at h
        · rename_i hstatus
          cases h
          exact .kept _ _ hstatus
        · rename_i hstatus
          split at h
          · rename_i before after hbefore hafter
            cases h
            exact .appended (not_not.1 hstatus) hbefore hafter
          · cases h
      · rename_i happend
        cases h
        rw [Bool.not_eq_true] at happend
        subst happend
        refine .replaced ?_
        by_cases hs : previous.status = .inProgress
        · exact .inl hs
        · exact .inr (not_not.1 (fun hn => hmay ⟨hs, hn⟩))

theorem Merged.id {u : Update J} {previous item : Item J} (h : Merged u previous item)
    (hid : previous.id = u.id) : item.id = u.id := by
  cases h with
  | kept | output => exact hid
  | replaced | appended => rfl

theorem Merged.shaped {turn : TurnID} {o : Observation J} {u : Update J} {previous item : Item J}
    (h : Merged u previous item) (hp : Projected turn o u) (hshape : previous.Shaped) :
    item.Shaped := by
  cases h with
  | kept => exact hshape
  | output => simpa [Item.Shaped] using hshape
  | replaced => exact hp.shaped
  | appended =>
    -- Only the messages of the assistant are appended to.
    cases hp with
    | delta itemID => exact Item.shaped_text (deltaKey_isText itemID) rfl rfl rfl
    | outputMessage => exact ⟨rfl, rfl, _, rfl⟩

end Parsar.Items
