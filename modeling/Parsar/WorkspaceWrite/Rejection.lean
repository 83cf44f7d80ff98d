import Parsar.WorkspaceWrite.Agreement

namespace Parsar.WorkspaceWrite

def Router.Final (r : Router) (id : String) : Prop :=
  ∃ u ∈ r.retired, u.id = id ∧ ∀ c ∈ u.calls, c.wrote = false

theorem Router.Final.mono {r r' : Router} {id : String} (h : r.Final id)
    (hretired : r.retired ⊆ r'.retired) : r'.Final id := by
  obtain ⟨u, hu, hrest⟩ := h
  exact ⟨u, hretired hu, hrest⟩

/-- A malformed frame is not handled between the release of an upload that wrote and the return of
its call. -/
def Timely (v : View) (env : Frame) : Prop :=
  env.request = none → ∀ c, v.calls env.id = some c → c.hasReturned = false →
    ∀ u ∈ v.router.retired, u.id = env.id → ∀ w ∈ u.calls, w.wrote = false

/-- The local writer reports a typed error only when nothing was written, and malformed frames are
timely. -/
def Fair (v : View) : Label → Prop
  | .handleWorkspaceWrite _ => ∀ env ∈ v.frames.head?, Timely v env
  | .writeLocal answer => (answer.err.bind WriteError.code).isSome = true → answer.wrote = false
  | _ => True

theorem wrote_of_rejected {answer : WriteAnswer} {size : Int}
    (hhonest : (answer.err.bind WriteError.code).isSome = true → answer.wrote = false)
    (h : (workspaceWriteResult answer size).outcome = .rejected) : answer.wrote = false := by
  unfold workspaceWriteResult at h
  split at h
  · cases h
  · split at h
    · rename_i code hcode
      exact hhonest (by simp [hcode])
    · cases h

def FinalBehind (r : Router) (id : String) (a b : Option WorkspaceWriteResultPayload) : Prop :=
  (∃ result, a = some result ∧ result.outcome = .ready) →
    (∃ result, b = some result ∧ result.outcome = .rejected) → r.Final id

structure Awaits (r : Router) (id : String) (c : Call)
    (replies : List (Option WorkspaceWriteResultPayload)) : Prop where
  order : replies.Pairwise (FinalBehind r id)
  started : c.started = true → ∀ result, some result ∈ replies → result.outcome = .rejected →
    r.Final id

structure Truthful (v : View) : Prop where
  finishing : ∀ u, v.router.workspaceWrite = some u → ∀ result, u.worker = .finishing result →
    result.outcome = .rejected → ∀ w ∈ u.calls, w.wrote = false
  outbox : ∀ reply ∈ v.router.outbox, ∀ result, reply.result = some result →
    result.outcome ≠ .ready ∧ (result.outcome = .rejected → v.router.Final reply.id)
  awaits : ∀ id c, v.calls id = some c → c.hasReturned = false →
    Awaits v.router id c (v.replies id)
  returned : ∀ id c result, v.calls id = some c → c.status = .returned (some result) →
    result.outcome = .rejected → c.committed = true → v.router.Final id

theorem truthful_init : Truthful (System.view {}) := by
  constructor <;> simp [System.view]

section Awaits

variable {r r' : Router} {id : String} {c : Call}
  {replies replies' : List (Option WorkspaceWriteResultPayload)}

theorem FinalBehind.mono {a b : Option WorkspaceWriteResultPayload} (h : FinalBehind r id a b)
    (hretired : r.retired ⊆ r'.retired) : FinalBehind r' id a b :=
  fun ha hb => (h ha hb).mono hretired

theorem Awaits.mono (h : Awaits r id c replies) (hretired : r.retired ⊆ r'.retired)
    (hreplies : replies'.Sublist replies) : Awaits r' id c replies' where
  order := (h.order.sublist hreplies).imp fun hab => hab.mono hretired
  started hstarted result hresult hrejected :=
    (h.started hstarted result (hreplies.subset hresult) hrejected).mono hretired

theorem Awaits.insert {pre post : List (Option WorkspaceWriteResultPayload)}
    {reply : Option WorkspaceWriteResultPayload} (h : Awaits r id c (pre ++ post))
    (hready : ∀ result, reply = some result → result.outcome ≠ .ready)
    (hfinal : ∀ result, reply = some result → result.outcome = .rejected → r.Final id) :
    Awaits r id c (pre ++ reply :: post) := by
  obtain ⟨hpre, hpost, hcross⟩ := List.pairwise_append.mp h.order
  refine ⟨List.pairwise_append.mpr ⟨hpre, List.pairwise_cons.mpr ⟨?_, hpost⟩, ?_⟩, ?_⟩
  · rintro b - ⟨result, hresult, houtcome⟩
    exact absurd houtcome (hready result hresult)
  · intro a ha b hb
    rcases List.mem_cons.mp hb with rfl | hb
    · rintro - ⟨result, hresult, hrejected⟩
      exact hfinal result hresult hrejected
    · exact hcross a ha b hb
  · intro hstarted result hresult hrejected
    rcases List.mem_append.mp hresult with hresult | hresult
    · exact h.started hstarted result (List.mem_append_left _ hresult) hrejected
    · rcases List.mem_cons.mp hresult with hresult | hresult
      · exact hfinal result hresult.symm hrejected
      · exact h.started hstarted result (List.mem_append_right _ hresult) hrejected

theorem Awaits.append (h : Awaits r id c replies) {result : WorkspaceWriteResultPayload}
    (hfinal : result.outcome = .rejected →
      (∃ reply, some reply ∈ replies ∧ reply.outcome = .ready) ∨ c.started = true → r.Final id) :
    Awaits r id c (replies ++ [some result]) := by
  refine ⟨pairwise_concat h.order ?_, ?_⟩
  · rintro a ha ⟨reply, rfl, houtcome⟩ ⟨answer, heq, hrejected⟩
    cases heq
    exact hfinal hrejected (.inl ⟨reply, ha, houtcome⟩)
  · intro hyes reply hreply hrejected
    rcases List.mem_append.mp hreply with hreply | hreply
    · exact h.started hyes reply hreply hrejected
    · obtain rfl : reply = result := by simpa using hreply
      exact hfinal hrejected (.inr hyes)

end Awaits

namespace Truthful

variable {own : String → Bool} {v : View}

theorem lost (h : Truthful v) {frames : List Frame}
    {replies : String → List (Option WorkspaceWriteResultPayload)}
    (hreplies : ∀ id, (replies id).Sublist (v.replies id)) :
    Truthful { v with frames := frames, replies := replies } where
  finishing := h.finishing
  outbox := h.outbox
  awaits id c hc hopen := (h.awaits id c hc hopen).mono (List.Subset.refl _) (hreplies id)
  returned := h.returned

variable {r : Router} {replies : List (Option WorkspaceWriteResultPayload)}

theorem of_router (h : Truthful v) (hretired : v.router.retired ⊆ r.retired)
    (hfinishing : ∀ u, r.workspaceWrite = some u → ∀ result, u.worker = .finishing result →
      result.outcome = .rejected → ∀ w ∈ u.calls, w.wrote = false)
    (houtbox : ∀ reply ∈ r.outbox, reply ∈ v.router.outbox ∨
      ∀ result, reply.result = some result →
        result.outcome ≠ .ready ∧ (result.outcome = .rejected → r.Final reply.id)) :
    Truthful { v with router := r } where
  finishing := hfinishing
  outbox reply hreply result hresult := by
    rcases houtbox reply hreply with hold | hnew
    · obtain ⟨hready, hfinal⟩ := h.outbox reply hold result hresult
      exact ⟨hready, fun hrejected => (hfinal hrejected).mono hretired⟩
    · exact hnew result hresult
  awaits id c hc hopen := (h.awaits id c hc hopen).mono hretired (List.Sublist.refl _)
  returned id c result hc hstatus hrejected hcommitted :=
    (h.returned id c result hc hstatus hrejected hcommitted).mono hretired

theorem set_call (h : Truthful v) {id : String} {c : Call}
    (hawaits : c.hasReturned = false → Awaits v.router id c replies)
    (hreturned : ∀ result, c.status = .returned (some result) → result.outcome = .rejected →
      c.committed = true → v.router.Final id) :
    Truthful { v with
      calls := Function.update v.calls id (some c)
      replies := Function.update v.replies id replies } := by
  refine { h with
    awaits := ?_
    returned := ?_ }
  · intro id' c' hc' hopen
    change Awaits v.router id' c' (Function.update v.replies id replies id')
    rcases GoStd.GoMap.set_eq_some hc' with ⟨rfl, rfl⟩ | ⟨heq, hc'⟩
    · rw [Function.update_self]
      exact hawaits hopen
    · rw [Function.update_of_ne heq]
      exact h.awaits id' c' hc' hopen
  · intro id' c' result hc'
    rcases GoStd.GoMap.set_eq_some hc' with ⟨rfl, rfl⟩ | ⟨-, hc'⟩
    · exact hreturned result
    · exact h.returned id' c' result hc'

theorem reply (h : Truthful v) {id : String}
    (hawaits : ∀ c, v.calls id = some c → c.hasReturned = false →
      Awaits v.router id c (v.replies id) → Awaits v.router id c replies) :
    Truthful { v with replies := Function.update v.replies id replies } := by
  refine { h with awaits := ?_ }
  intro id' c hc hopen
  change Awaits v.router id' c (Function.update v.replies id replies id')
  by_cases heq : id' = id
  · subst heq
    rw [Function.update_self]
    exact hawaits c hc hopen (h.awaits id' c hc hopen)
  · rw [Function.update_of_ne heq]
    exact h.awaits id' c hc hopen

theorem called (h : Truthful v) (hlinked : Linked own v) {id : String} {c : Call}
    (hown : own id = true) (hfresh : v.calls id = none) (hstage : c.stage = .begin)
    (hstatus : c.status = .sending ∨ c.status = .returned none) :
    Truthful { v with calls := Function.update v.calls id (some c) } := by
  have hnone : ¬ v.router.Admits id := by
    rintro ⟨u, hu, hid⟩
    have hzero := (hlinked.single id hown).2 (by simp [hfresh])
    have hmem : id ∈ admissions v.frames v.router :=
      List.mem_append_right _ (List.mem_map.mpr ⟨u, hu, hid⟩)
    exact List.count_eq_zero.mp hzero hmem
  have hset : Truthful { v with
      calls := Function.update v.calls id (some c)
      replies := Function.update v.replies id (v.replies id) } := by
    refine h.set_call ?_ ?_
    · intro _
      refine ⟨?_, by simp [Call.started, hstage]⟩
      have htrivial : (v.replies id).Pairwise fun _ _ => True :=
        List.pairwise_of_forall fun _ _ => trivial
      refine htrivial.imp_of_mem ?_
      rintro a b ha - - ⟨result, rfl, hready⟩ -
      exact absurd ((hlinked.replies id hown result ha).ready hready) hnone
    · intro result hresult
      rcases hstatus with hs | hs <;> simp [hs] at hresult
  rwa [Function.update_eq_self] at hset

theorem exchanged (h : Truthful v) {id : String} {c : Call}
    {reply : Option WorkspaceWriteResultPayload}
    {rest : List (Option WorkspaceWriteResultPayload)} (hc : v.calls id = some c)
    (hawaiting : c.status = .awaiting) (hreply : v.replies id = reply :: rest) :
    Truthful { v with
      calls := Function.update v.calls id (some (c.exchanged reply))
      replies := Function.update v.replies id rest } := by
  have hawaits := h.awaits id c hc (by simp [Call.hasReturned, hawaiting])
  rw [hreply] at hawaits
  obtain ⟨hhead, htail⟩ := List.pairwise_cons.mp hawaits.order
  rcases c.exchanged_cases reply with heq | ⟨result, rfl, heq | ⟨hstage, houtcome, heq⟩⟩
  · refine h.set_call ?_ ?_ <;> simp [heq, Call.hasReturned]
  · refine h.set_call ?_ ?_
    · simp [heq, Call.hasReturned]
    · intro result' hresult hrejected hcommitted
      obtain rfl : result = result' := by simpa [heq] using hresult
      rw [heq] at hcommitted
      have hstarted : c.started = true := by
        simp only [Call.committed, Bool.and_eq_true, decide_eq_true_eq] at hcommitted
        simp [Call.started, hcommitted.1]
      exact hawaits.started hstarted result (by simp) hrejected
  · refine h.set_call ?_ (by simp [heq])
    intro _
    refine ⟨htail, ?_⟩
    intro _ answer hanswer hrejected
    by_cases hstarted : c.started = true
    · exact hawaits.started hstarted answer (List.mem_cons_of_mem _ hanswer) hrejected
    · -- the reply just taken was the `ready`
      have hbegin : c.stage = .begin := by simpa [Call.started] using hstarted
      have hready : result.outcome = .ready := by rw [houtcome, Call.expected, hbegin]
      exact hhead (some answer) hanswer ⟨result, rfl, hready⟩ ⟨answer, rfl, hrejected⟩

theorem final_of_rejected (hlinked : Linked own v) {env : Frame} {rest : List Frame}
    {answer : WorkspaceWriteResultPayload} {c : Call} (hframes : v.frames = env :: rest)
    (hhandled : v.router.Handled env r (some answer)) (hrejected : answer.outcome = .rejected)
    (htimely : Timely v env) (hc : v.calls env.id = some c) (hopen : c.hasReturned = false)
    (hadmits : v.router.Admits env.id) : v.router.Final env.id := by
  obtain ⟨u, hu, hid⟩ := hadmits
  have hown := hlinked.owned env.id c hc
  have hretired : v.router.pending env.id = false → u ∈ v.router.retired := by
    intro hpending
    rcases List.mem_append.mp hu with hu | hu
    · exact hu
    · have hcurrent : v.router.workspaceWrite = some u := by simpa using hu
      simp [Router.pending, hcurrent, hid] at hpending
  generalize hresult : some answer = result at hhandled
  cases hhandled with
  | ignored => cases hresult
  | malformed hrequest hpending =>
    exact ⟨u, hretired hpending, hid, htimely hrequest c hc hopen u (hretired hpending) hid⟩
  | refused hrequest hbegin =>
    -- the begin frame and the upload would make two
    have hone := (hlinked.single env.id hown).1
    have henv : env.isBegin = true := by simp [Frame.isBegin, hrequest, hbegin]
    have hmem : env.id ∈ v.router.admitted.map (·.id) := List.mem_map.mpr ⟨u, hu, hid⟩
    have hpos := List.count_pos_iff.mpr hmem
    simp only [admissions, hframes, List.filter_cons, henv, if_true, List.map_cons,
      List.count_append, List.count_cons_self] at hone
    omega
  | begun =>
    cases hresult
    cases hrejected
  | stale hrequest hstep hpending =>
    have happly : u.apply = false := by
      by_contra happly
      have hnone := hlinked.applied u hu (by simpa using happly) (hid ▸ hown) env
        (by simp [hframes]) hid.symm
      rw [hrequest] at hnone
      cases hnone
    have hnil := (hlinked.uploads u hu).1.calls_eq_nil happly
    exact ⟨u, hretired hpending, hid, by simp [hnil]⟩
  | @taken request w hrequest hstep hw =>
    have htaken := WorkspaceUpload.takeFrame_taken (hlinked.current hw).2.2 request
    rw [← hresult] at htaken
    rw [htaken.outcome] at hrejected
    cases hrejected

variable (h : Truthful v) (hlinked : Linked own v)

include h hlinked

theorem handled {env : Frame} {rest : List Frame} {result : Option WorkspaceWriteResultPayload}
    (hframes : v.frames = env :: rest) (hhandled : v.router.Handled env r result)
    (htimely : Timely v env) :
    Truthful { v with
      frames := rest
      router := r
      replies := Function.update v.replies env.id
        (v.replies env.id ++ (result.map some).toList) } := by
  have hsame : r.retired = v.router.retired ∧ r.outbox = v.router.outbox ∧
      ∀ u, r.workspaceWrite = some u → ∀ result, u.worker = .finishing result →
        result.outcome = .rejected → ∀ w ∈ u.calls, w.wrote = false := by
    cases hhandled with
    | ignored | malformed | refused | stale => exact ⟨rfl, rfl, h.finishing⟩
    | begun =>
      refine ⟨rfl, rfl, ?_⟩
      intro u hu result hworker
      cases hu
      cases hworker
    | @taken request u hrequest hstep hu =>
      refine ⟨rfl, rfl, ?_⟩
      intro u' hu' result hworker
      cases hu'
      obtain ⟨hsameWorker, hsameCalls⟩ :=
        (WorkspaceUpload.takeFrame_taken (hlinked.current hu).2.2 request).same
      rw [hsameWorker] at hworker
      rw [hsameCalls]
      exact h.finishing u hu result hworker
  obtain ⟨hretired, houtbox, hfinishing⟩ := hsame
  have hrest : Truthful { v with frames := rest } := h.lost fun _ => List.Sublist.refl _
  have hrouter : Truthful { v with frames := rest, router := r } := by
    refine hrest.of_router ?_ hfinishing ?_
    · rw [hretired]
      exact List.Subset.refl _
    · intro reply hreply
      exact .inl (houtbox ▸ hreply)
  refine hrouter.reply ?_
  intro c hc hopen hawaits
  cases result with
  | none => simpa using hawaits
  | some answer =>
    refine hawaits.append ?_
    intro hrejected hbehind
    have hadmits : v.router.Admits env.id := by
      rcases hbehind with ⟨reply, hreply, hready⟩ | hstarted
      · exact (hlinked.replies env.id (hlinked.owned env.id c hc) reply hreply).ready hready
      · exact hlinked.started env.id c hc hstarted
    have hfinal := final_of_rejected hlinked hframes hhandled hrejected htimely hc hopen hadmits
    exact hfinal.mono (by rw [hretired]; exact List.Subset.refl _)

theorem tookBody (htake : v.router.takeBody = some r) : Truthful { v with router := r } := by
  obtain ⟨u, hu, hworker, rfl⟩ := Router.takeBody_eq_some htake
  refine h.of_router (List.Subset.refl _) ?_ fun _ hreply => .inl hreply
  intro u' hu' result _ _ w hw
  cases hu'
  have hnil : u.calls = [] := ((hlinked.current hu).2.2.waiting hworker).1
  simp [WorkspaceUpload.tookBody, hnil] at hw

theorem wroteLocal {answer : WriteAnswer} (hwrite : v.router.writeWorkspaceFile answer = some r)
    (hhonest : (answer.err.bind WriteError.code).isSome = true → answer.wrote = false) :
    Truthful { v with router := r } := by
  obtain ⟨u, body, hu, hworker, rfl⟩ := Router.writeWorkspaceFile_eq_some hwrite
  refine h.of_router (List.Subset.refl _) ?_ fun _ hreply => .inl hreply
  intro u' hu' result hresult hrejected w hw
  cases hu'
  obtain rfl := Worker.finishing.inj hresult
  have hnil : u.calls = [] := ((hlinked.current hu).2.2.applying body hworker).1
  obtain rfl : w = ⟨u.request.path, body, answer.wrote⟩ := by
    simpa [WorkspaceUpload.wrote, hnil] using hw
  exact wrote_of_rejected hhonest hrejected

theorem recorded (hrecord : v.router.recordResult = some r) : Truthful { v with router := r } := by
  obtain ⟨u, result, hu, hworker, houtbox, hcases⟩ := Router.recordResult_eq_some hrecord
  have hretired : v.router.retired ⊆ r.retired := by
    rcases hcases with ⟨-, -, heq⟩ | ⟨-, -, heq⟩
    · rw [heq]
      exact List.Subset.refl _
    · rw [heq]
      exact List.subset_append_left _ _
  refine h.of_router hretired ?_ ?_
  · intro u' hu' result' hworker'
    rcases hcases with ⟨-, hwrite, -⟩ | ⟨-, hwrite, -⟩
    · cases hwrite.symm.trans hu'
      cases hworker'
    · rw [hwrite] at hu'
      cases hu'
  · intro reply hreply
    rw [houtbox] at hreply
    rcases mem_concat hreply with hreply | rfl
    · exact .inl hreply
    · refine .inr ?_
      intro result' hresult
      cases hresult
      refine ⟨((hlinked.current hu).2.2.finishing result hworker).1, ?_⟩
      intro hrejected
      rcases hcases with ⟨hunknown, -⟩ | ⟨-, -, heq⟩
      · rw [hrejected] at hunknown
        cases hunknown
      · exact ⟨u.settle result, by simp [heq], rfl, h.finishing u hu result hworker hrejected⟩

theorem step {a : Label} {v' : View} (hfair : Fair v a) (hchange : Change own a v v') :
    Truthful v' := by
  cases hchange with
  | lost hframes hreplies => exact h.lost hreplies
  | shutdown => exact h.of_router (List.Subset.refl _) h.finishing fun _ hreply => .inl hreply
  | called hown hfresh hstage hstatus => exact h.called hlinked hown hfresh hstage hstatus
  | @gaveUp _ _ id c =>
    have hset : Truthful { v with
        calls := Function.update v.calls id (some { c with status := .returned none })
        replies := Function.update v.replies id (v.replies id) } := by
      refine h.set_call ?_ ?_ <;> simp [Call.hasReturned]
    rwa [Function.update_eq_self] at hset
  | @sent _ _ id c size hc hsending =>
    have hset : Truthful { v with
        calls := Function.update v.calls id (some { c with status := .awaiting })
        replies := Function.update v.replies id (v.replies id) } := by
      refine h.set_call ?_ (by simp)
      intro _
      have hawaits := h.awaits id c hc (by simp [Call.hasReturned, hsending])
      exact ⟨hawaits.order, hawaits.started⟩
    rw [Function.update_eq_self] at hset
    exact hset.lost fun _ => List.Sublist.refl _
  | exchanged hc hawaiting hreply => exact h.exchanged hc hawaiting hreply
  | strayFrame => exact h.lost fun _ => List.Sublist.refl _
  | @strayReply _ _ reply pre post hstray hreplies =>
    refine h.reply ?_
    intro c hc _ hawaits
    have hnone : reply.result = none := by
      rcases hstray with hnone | hforeign
      · exact hnone
      · rw [hlinked.owned reply.id c hc] at hforeign
        cases hforeign
    rw [hreplies] at hawaits
    exact hawaits.insert (by simp [hnone]) (by simp [hnone])
  | @handled work _ env rest r result hframes hhandled =>
    exact h.handled hlinked hframes hhandled (hfair env (by simp [hframes]))
  | tookBody htake => exact h.tookBody hlinked htake
  | wroteLocal hwrite => exact h.wroteLocal hlinked hwrite hfair
  | recorded hrecord => exact h.recorded hlinked hrecord
  | @sentResult _ _ i reply pre post hreply hreplies =>
    have hrouter : Truthful { v with
        router := { v.router with outbox := v.router.outbox.eraseIdx i } } :=
      h.of_router (List.Subset.refl _) h.finishing
        fun _ hreply => .inl (List.mem_of_mem_eraseIdx hreply)
    refine hrouter.reply ?_
    intro c hc _ hawaits
    have hbears := h.outbox reply (List.mem_of_getElem? hreply)
    rw [hreplies] at hawaits
    exact hawaits.insert (fun result hresult => (hbears result hresult).1)
      fun result hresult => (hbears result hresult).2
  | droppedResult =>
    exact h.of_router (List.Subset.refl _) h.finishing
      fun _ hreply => .inl (List.mem_of_mem_eraseIdx hreply)

end Truthful

end Parsar.WorkspaceWrite
