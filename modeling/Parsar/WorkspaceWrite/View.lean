import Parsar.WorkspaceWrite.System

namespace Parsar.WorkspaceWrite

def repliesOf (slots : String → Option (Option WorkspaceWriteResultPayload)) (queue : List Reply)
    (id : String) : List (Option WorkspaceWriteResultPayload) :=
  (slots id).toList ++ (queue.filter (·.id = id)).map (·.result)

/-- The calls, the frames to the daemon, the router, and the replies to each call, in the order they
will be seen. -/
@[ext] structure View where
  calls : String → Option Call
  frames : List Frame
  router : Router
  replies : String → List (Option WorkspaceWriteResultPayload)

def Handler.frames : Handler → List Frame
  | .handling env => [env]
  | _ => []

def Handler.replies : Handler → List Reply
  | .replying reply => [reply]
  | _ => []

def System.view (st : System) : View where
  calls := st.calls
  frames := st.handler.frames ++ st.down
  router := st.router
  replies := repliesOf st.slots (st.up ++ st.handler.replies)

/-- The steps as they look from there. A step that moves a frame or a reply along, or loses it, is
`lost`. -/
inductive Change (own : String → Bool) : Label → View → View → Prop
  | lost {a : Label} {v : View} {frames : List Frame}
      {replies : String → List (Option WorkspaceWriteResultPayload)}
      (hframes : frames.Sublist v.frames) (hreplies : ∀ id, (replies id).Sublist (v.replies id)) :
      Change own a v { v with frames := frames, replies := replies }
  | shutdown {a : Label} {v : View} :
      Change own a v { v with router := { v.router with closed := true } }
  | called {a : Label} {v : View} {id : String} {c : Call} (hown : own id = true)
      (hfresh : v.calls id = none) (hstage : c.stage = .begin)
      (hstatus : c.status = .sending ∨ c.status = .returned none) :
      Change own a v { v with calls := Function.update v.calls id (some c) }
  | gaveUp {a : Label} {v : View} {id : String} {c : Call} (hc : v.calls id = some c) :
      Change own a v { v with
        calls := Function.update v.calls id (some { c with status := .returned none }) }
  | sent {a : Label} {v : View} {id : String} {c : Call} {size : Nat} (hc : v.calls id = some c)
      (hsending : c.status = .sending) :
      Change own a v { v with
        calls := Function.update v.calls id (some { c with status := .awaiting })
        frames := v.frames ++ [⟨id, size, some c.payload⟩] }
  | exchanged {a : Label} {v : View} {id : String} {c : Call}
      {reply : Option WorkspaceWriteResultPayload}
      {rest : List (Option WorkspaceWriteResultPayload)} (hc : v.calls id = some c)
      (hawaiting : c.status = .awaiting) (hreply : v.replies id = reply :: rest) :
      Change own a v { v with
        calls := Function.update v.calls id (some (c.exchanged reply))
        replies := Function.update v.replies id rest }
  | strayFrame {a : Label} {v : View} {env : Frame}
      (hstray : env.request = none ∨ own env.id = false) :
      Change own a v { v with frames := v.frames ++ [env] }
  | strayReply {a : Label} {v : View} {reply : Reply}
      {pre post : List (Option WorkspaceWriteResultPayload)}
      (hstray : reply.result = none ∨ own reply.id = false)
      (hreplies : v.replies reply.id = pre ++ post) :
      Change own a v { v with
        replies := Function.update v.replies reply.id (pre ++ reply.result :: post) }
  | handled {work : OtherWork} {v : View} {env : Frame} {rest : List Frame} {r : Router}
      {result : Option WorkspaceWriteResultPayload} (hframes : v.frames = env :: rest)
      (hhandled : v.router.Handled env r result) :
      Change own (.handleWorkspaceWrite work) v { v with
        frames := rest
        router := r
        replies := Function.update v.replies env.id
          (v.replies env.id ++ (result.map some).toList) }
  | tookBody {a : Label} {v : View} {r : Router} (htake : v.router.takeBody = some r) :
      Change own a v { v with router := r }
  | wroteLocal {answer : WriteAnswer} {v : View} {r : Router}
      (hwrite : v.router.writeWorkspaceFile answer = some r) :
      Change own (.writeLocal answer) v { v with router := r }
  | recorded {a : Label} {v : View} {r : Router} (hrecord : v.router.recordResult = some r) :
      Change own a v { v with router := r }
  | sentResult {a : Label} {v : View} {i : Nat} {reply : Reply}
      {pre post : List (Option WorkspaceWriteResultPayload)}
      (hreply : v.router.outbox[i]? = some reply) (hreplies : v.replies reply.id = pre ++ post) :
      Change own a v { v with
        router := { v.router with outbox := v.router.outbox.eraseIdx i }
        replies := Function.update v.replies reply.id (pre ++ reply.result :: post) }
  | droppedResult {a : Label} {v : View} {i : Nat} :
      Change own a v { v with
        router := { v.router with outbox := v.router.outbox.eraseIdx i } }

section Replies

variable {slots : String → Option (Option WorkspaceWriteResultPayload)} {queue queue' : List Reply}

theorem repliesOf_sublist (h : queue'.Sublist queue) (id : String) :
    (repliesOf slots queue' id).Sublist (repliesOf slots queue id) :=
  List.Sublist.append_left ((h.filter _).map _) _

theorem repliesOf_insert (slots : String → Option (Option WorkspaceWriteResultPayload))
    (pre post : List Reply) (reply : Reply) :
    repliesOf slots (pre ++ reply :: post) =
      Function.update (repliesOf slots (pre ++ post)) reply.id
        (repliesOf slots pre reply.id ++
          reply.result :: (post.filter (·.id = reply.id)).map (·.result)) := by
  funext id
  by_cases heq : id = reply.id
  · subst heq
    simp [repliesOf]
  · have hne : ¬ reply.id = id := fun h => heq h.symm
    simp [repliesOf, heq, hne]

theorem repliesOf_append (pre post : List Reply) (id : String) :
    repliesOf slots (pre ++ post) id =
      repliesOf slots pre id ++ (post.filter (·.id = id)).map (·.result) := by
  simp [repliesOf]

end Replies

namespace System

variable {own : String → Bool} {st t : System}

theorem setStatus_eq (st : System) (id : String) (c : Call) : ∃ writes, st.setStatus id c =
    { st with calls := Function.update st.calls id (some c), writes := writes } := by
  unfold setStatus
  split
  · exact ⟨_, rfl⟩
  · exact ⟨_, rfl⟩

variable {a : Label}

theorem writeWorkspaceFile_change {id : String} (request : WorkspaceWritePayload)
    (data : GoStd.Bytes) (hown : own id = true) (hfresh : st.calls id = none) :
    Change own a st.view (st.writeWorkspaceFile id request data).view := by
  unfold writeWorkspaceFile
  split
  · exact .called hown hfresh rfl (.inr rfl)
  · exact .called hown hfresh rfl (.inl rfl)

theorem send_change {id : String} {size : Nat} (h : st.send id size = some t) :
    Change own a st.view t.view := by
  simp only [send, Option.bind_eq_bind, Option.bind_eq_some_iff] at h
  obtain ⟨c, hc, h⟩ := h
  split at h
  · cases h
  · rename_i hstatus
    split at h
    · cases h
      obtain ⟨writes, heq⟩ := setStatus_eq st id { c with status := .returned none }
      rw [heq]
      exact .gaveUp hc
    · cases h
      obtain ⟨writes, heq⟩ := setStatus_eq st id { c with status := .awaiting }
      rw [heq]
      have hsent : Change own a st.view { st.view with
          calls := Function.update st.calls id (some { c with status := .awaiting })
          frames := st.view.frames ++ [⟨id, size, some c.payload⟩] } :=
        .sent hc (by simpa using hstatus)
      simpa only [view, List.append_assoc] using hsent

theorem receive_change {id : String} (h : st.receive id = some t) :
    Change own a st.view t.view := by
  simp only [receive, Option.bind_eq_bind, Option.bind_eq_some_iff] at h
  obtain ⟨c, hc, reply, hslot, h⟩ := h
  split at h
  · cases h
  · rename_i hstatus
    cases h
    obtain ⟨writes, heq⟩ := setStatus_eq st id (c.exchanged reply)
    rw [heq]
    have hreplies : st.view.replies id =
        reply :: ((st.up ++ st.handler.replies).filter (·.id = id)).map (·.result) := by
      simp [view, repliesOf, hslot]
    have hrest : Function.update st.view.replies id
        (((st.up ++ st.handler.replies).filter (·.id = id)).map (·.result)) =
        repliesOf (Function.update st.slots id none) (st.up ++ st.handler.replies) := by
      funext id'
      by_cases hid : id' = id
      · subst hid
        simp [repliesOf]
      · simp [view, repliesOf, hid]
    have hexchanged : Change own a st.view _ := .exchanged hc (by simpa using hstatus) hreplies
    rw [hrest] at hexchanged
    exact hexchanged

theorem giveUp_change {id : String} (h : st.giveUp id = some t) :
    Change own a st.view t.view := by
  simp only [giveUp, Option.bind_eq_bind, Option.bind_eq_some_iff] at h
  obtain ⟨c, hc, h⟩ := h
  split at h
  · cases h
  · cases h
    obtain ⟨writes, heq⟩ := setStatus_eq st id { c with status := .returned none }
    rw [heq]
    exact .gaveUp hc

theorem dispatchWorkspaceWrite_change (h : st.dispatchWorkspaceWrite = some t) :
    Change own a st.view t.view := by
  unfold dispatchWorkspaceWrite at h
  split at h
  · cases h
  · rename_i reply rest hup
    split at h
    · rename_i hguard
      cases h
      refine .lost (List.Sublist.refl _) ?_
      intro id
      by_cases heq : id = reply.id
      · subst heq
        simp [view, repliesOf, hup, hguard.2]
      · have hne : ¬ reply.id = id := fun h => heq h.symm
        simp [view, repliesOf, hup, heq, hne]
    · cases h
      refine .lost (List.Sublist.refl _) (repliesOf_sublist ?_)
      rw [hup]
      exact List.sublist_cons_self reply _

theorem handle_change (h : st.handle = some t) : Change own a st.view t.view := by
  unfold handle at h
  split at h
  · rename_i env rest hidle hdown
    cases h
    have hframes : st.view.frames = env :: rest := by simp [view, hidle, hdown, Handler.frames]
    refine .lost ?_ ?_
    · rw [hframes]
      split
      · exact List.sublist_cons_self env rest
      · exact List.Sublist.refl _
    · intro id
      simp only [view, hidle]
      split
      · exact List.Sublist.refl _
      · exact List.Sublist.refl _
  · cases h

theorem handleWorkspaceWrite_change {work : OtherWork}
    (h : st.handleWorkspaceWrite work = some t) :
    Change own (.handleWorkspaceWrite work) st.view t.view := by
  unfold handleWorkspaceWrite at h
  split at h
  · rename_i env henv
    cases h
    have hhandled := st.router.handle_handled work env
    have hframes : st.view.frames = env :: st.down := by simp [view, henv, Handler.frames]
    have hchange : Change own (.handleWorkspaceWrite work) st.view _ := .handled hframes hhandled
    cases hresult : (st.router.handleWorkspaceWrite work env).2 with
    | none =>
      rw [hresult] at hchange
      simpa [view, henv, Handler.frames, Handler.replies] using hchange
    | some result =>
      rw [hresult] at hchange
      have hreplies := repliesOf_insert st.slots st.up [] ⟨env.id, some result⟩
      simp only [List.append_nil, List.filter_nil, List.map_nil] at hreplies
      simpa [view, henv, Handler.frames, Handler.replies, hreplies] using hchange
  · cases h

theorem sendWorkspaceWrite_change {ok : Bool} (h : st.sendWorkspaceWrite ok = some t) :
    Change own a st.view t.view := by
  unfold sendWorkspaceWrite at h
  split at h
  · rename_i reply hreply
    cases h
    refine .lost ?_ (repliesOf_sublist ?_)
    · simp [hreply, view, Handler.frames]
    · rw [hreply]
      split <;> simp [Handler.replies]
  · cases h

theorem sendResult_change {i : Nat} {ok : Bool} (h : st.sendResult i ok = some t) :
    Change own a st.view t.view := by
  simp only [sendResult, Option.map_eq_some_iff] at h
  obtain ⟨reply, hreply, rfl⟩ := h
  cases ok with
  | false => exact .droppedResult
  | true =>
    have hsent : Change own a st.view _ :=
      .sentResult hreply (repliesOf_append st.up st.handler.replies reply.id)
    have hreplies := repliesOf_insert st.slots st.up st.handler.replies reply
    simpa [view, hreplies] using hsent

theorem strayReply_change {reply : Reply} (hstray : reply.result = none ∨ own reply.id = false) :
    Change own a st.view (view { st with up := st.up ++ [reply] }) := by
  have hchange : Change own a st.view _ :=
    .strayReply hstray (repliesOf_append st.up st.handler.replies reply.id)
  have hreplies := repliesOf_insert st.slots st.up st.handler.replies reply
  simpa [view, hreplies] using hchange

theorem step_change (h : st.step own a = some t) : Change own a st.view t.view := by
  cases a with
  | writeWorkspaceFile id request data =>
    simp only [step] at h
    split at h
    · rename_i hguard
      cases h
      exact writeWorkspaceFile_change request data hguard.1 (by simpa using hguard.2)
    · cases h
  | send id size => exact send_change h
  | receive id => exact receive_change h
  | giveUp id => exact giveUp_change h
  | dispatchWorkspaceWrite => exact dispatchWorkspaceWrite_change h
  | close =>
    cases h
    exact .lost (List.Sublist.refl _) fun _ => List.Sublist.refl _
  | closeWorkspaceWrites =>
    simp only [step] at h
    split at h
    · cases h
      exact .lost (List.Sublist.refl _) fun _ => List.Sublist.refl _
    · cases h
  | loseFrame i =>
    cases h
    refine .lost ?_ fun _ => List.Sublist.refl _
    exact List.Sublist.append_left (List.eraseIdx_sublist st.down i) _
  | loseReply i =>
    cases h
    refine .lost (List.Sublist.refl _) (repliesOf_sublist ?_)
    exact List.Sublist.append_right (List.eraseIdx_sublist st.up i) _
  | strayFrame env =>
    simp only [step] at h
    split at h
    · rename_i hstray
      cases h
      have hchange : Change own (.strayFrame env) st.view _ := .strayFrame hstray
      simpa [view] using hchange
    · cases h
  | strayReply reply =>
    simp only [step] at h
    split at h
    · rename_i hstray
      cases h
      exact strayReply_change hstray
    · cases h
  | handle => exact handle_change h
  | handleWorkspaceWrite work => exact handleWorkspaceWrite_change h
  | sendWorkspaceWrite ok => exact sendWorkspaceWrite_change h
  | takeBody =>
    simp only [step, Option.map_eq_some_iff] at h
    obtain ⟨r, htake, rfl⟩ := h
    exact .tookBody htake
  | writeLocal answer =>
    simp only [step, Option.map_eq_some_iff] at h
    obtain ⟨r, hwrite, rfl⟩ := h
    exact .wroteLocal hwrite
  | recordResult =>
    simp only [step, Option.map_eq_some_iff] at h
    obtain ⟨r, hrecord, rfl⟩ := h
    exact .recorded hrecord
  | sendResult i ok => exact sendResult_change h
  | shutdown =>
    cases h
    exact .shutdown

end System

end Parsar.WorkspaceWrite
