import Parsar.GoStd.Map
import Parsar.WorkspaceWrite.View

namespace Parsar.WorkspaceWrite

open GoStd

namespace Call

def begun (c : Call) : Bool := !(c.stage = .begin && c.status = .sending)

def started (c : Call) : Bool := c.stage ≠ .begin

def committed (c : Call) : Bool := c.stage = .commit && c.status ≠ .sending

def Sent (c : Call) (p : WorkspaceWritePayload) : Prop :=
  p = c.request ∧ c.begun = true ∨ (∃ offset, p = chunkPayload c.data offset) ∧ c.started = true ∨
    p = { step := .commit } ∧ c.committed = true

structure Le (c c' : Call) : Prop where
  request : c'.request = c.request
  data : c'.data = c.data
  begun : c.begun = true → c'.begun = true
  started : c.started = true → c'.started = true
  committed : c.committed = true → c'.committed = true

theorem Le.refl (c : Call) : c.Le c := ⟨rfl, rfl, id, id, id⟩

variable {p : WorkspaceWritePayload}

theorem Sent.mono {c c' : Call} (h : c.Le c') (hp : c.Sent p) :
    c'.Sent p := by
  rcases hp with ⟨hp, hbegun⟩ | ⟨hp, hstarted⟩ | ⟨hp, hcommitted⟩
  · exact .inl ⟨by rw [h.request, hp], h.begun hbegun⟩
  · exact .inr (.inl ⟨by rw [h.data]; exact hp, h.started hstarted⟩)
  · exact .inr (.inr ⟨hp, h.committed hcommitted⟩)

theorem Sent.committed {c : Call} (h : c.Sent p) (hp : p.step = .commit) : c.committed = true := by
  rcases h with ⟨rfl, -⟩ | ⟨⟨offset, rfl⟩, -⟩ | ⟨-, hcommitted⟩
  · rw [c.begins] at hp
    cases hp
  · cases hp
  · exact hcommitted

theorem Sent.request {c : Call} (h : c.Sent p) (hp : p.step = .begin) : p = c.request := by
  rcases h with ⟨hp', -⟩ | ⟨⟨offset, rfl⟩, -⟩ | ⟨rfl, -⟩
  · exact hp'
  · cases hp
  · cases hp

theorem sent_payload (c : Call) : Sent { c with status := .awaiting } c.payload := by
  unfold payload
  split
  · rename_i hstage
    exact .inl ⟨rfl, by simp [begun]⟩
  · rename_i offset hstage
    exact .inr (.inl ⟨⟨offset, rfl⟩, by simp [started, hstage]⟩)
  · rename_i hstage
    exact .inr (.inr ⟨rfl, by simp [committed, hstage]⟩)

theorem stage_of_payload (c : Call) (h : c.payload.step = .begin) : c.stage = .begin := by
  unfold payload at h
  split at h
  · assumption
  · cases h
  · cases h

theorem le_returned (c : Call) (result : Option WorkspaceWriteResultPayload) :
    c.Le { c with status := .returned result } := by
  constructor <;> simp +contextual [begun, started, committed]

theorem le_awaiting (c : Call) : c.Le { c with status := .awaiting } := by
  constructor <;> simp +contextual [begun, started, committed]

theorem next_ne_begin (c : Call) : c.next ≠ .begin := by
  have hof : ∀ offset, Stage.ofOffset c.data offset ≠ .begin := by
    intro offset
    unfold Stage.ofOffset
    split <;> simp
  unfold next
  split
  · exact hof 0
  · exact hof _
  · simp

theorem exchanged_cases (c : Call) (reply : Option WorkspaceWriteResultPayload) :
    c.exchanged reply = { c with status := .returned none } ∨
      ∃ result, reply = some result ∧
        (c.exchanged reply = { c with status := .returned (some result) } ∨
          c.stage ≠ .commit ∧ result.outcome = c.expected.1 ∧
            c.exchanged reply = { c with stage := c.next, status := .sending }) := by
  unfold exchanged
  split
  · exact .inl rfl
  · rename_i result hresult
    refine .inr ⟨result, (Option.filter_eq_some_iff.mp hresult).1, ?_⟩
    split
    · exact .inl rfl
    · rename_i hgo
      push Not at hgo
      exact .inr ⟨hgo.2, hgo.1, rfl⟩

theorem le_exchanged (c : Call) (reply : Option WorkspaceWriteResultPayload) :
    c.Le (c.exchanged reply) := by
  rcases exchanged_cases c reply with heq | ⟨result, -, heq | ⟨hstage, -, heq⟩⟩
  · rw [heq]
    exact le_returned c none
  · rw [heq]
    exact le_returned c (some result)
  · rw [heq]
    have hnext := c.next_ne_begin
    constructor <;> simp [begun, started, committed, hstage, hnext]

end Call

def Frame.IsCommit (f : Frame) : Prop := ∃ p, f.request = some p ∧ p.step = .commit

def Frame.isBegin (f : Frame) : Bool := f.request.any (·.step = .begin)

theorem Frame.isBegin_eq_true {f : Frame} (h : f.isBegin = true) :
    ∃ p, f.request = some p ∧ p.step = .begin := by
  simpa [isBegin, Option.any_eq_true] using h

def WorkspaceUpload.bodies (u : WorkspaceUpload) : List Bytes :=
  u.data :: (match u.worker with
    | .applying data => [data]
    | _ => []) ++ u.calls.map (·.data)

theorem WorkspaceUpload.mem_bodies {u : WorkspaceUpload} {data : Bytes} :
    data ∈ u.bodies ↔
      data = u.data ∨ u.worker = .applying data ∨ ∃ c ∈ u.calls, c.data = data := by
  cases hworker : u.worker <;> simp [bodies, hworker]
  exact or_congr_right (or_congr_left eq_comm)

structure WorkspaceUpload.Made (u : WorkspaceUpload) (c : Call) : Prop where
  request : u.request = c.request
  bodies : ∀ data ∈ u.bodies, data <+: c.data
  committed : u.apply = true → c.committed = true

theorem WorkspaceUpload.Made.mono {u : WorkspaceUpload} {c c' : Call} (h : u.Made c)
    (hle : c.Le c') : u.Made c' where
  request := h.request.trans hle.request.symm
  bodies data hdata := by
    rw [hle.data]
    exact h.bodies data hdata
  committed happly := hle.committed (h.committed happly)

namespace Router

def Admits (r : Router) (id : String) : Prop := ∃ u ∈ r.admitted, u.id = id

def Wrote (r : Router) (id : String) : Prop := ∃ u ∈ r.admitted, u.id = id ∧ u.calls ≠ []

/-- What a result says about its operation is so. -/
structure Bears (r : Router) (id : String) (result : WorkspaceWriteResultPayload) : Prop where
  completed : result.outcome = .completed → r.Wrote id
  ready : result.outcome = .ready → r.Admits id

theorem Bears.mono {r r' : Router} {id : String} {result : WorkspaceWriteResultPayload}
    (h : r.Bears id result) (hwrote : r.Wrote id → r'.Wrote id)
    (hadmits : r.Admits id → r'.Admits id) : r'.Bears id result :=
  ⟨fun hc => hwrote (h.completed hc), fun hr => hadmits (h.ready hr)⟩

theorem bears_rejected (r : Router) (id : String) (code : ErrorCode) :
    r.Bears id (rejectedWorkspaceWrite code) := by
  constructor <;> simp [rejectedWorkspaceWrite]

end Router

/-- The operations with a begin frame on its way or an upload. -/
def admissions (frames : List Frame) (r : Router) : List String :=
  (frames.filter (·.isBegin)).map (·.id) ++ r.admitted.map (·.id)

/-- Behind its commit, no request of an operation is on its way. -/
def Behind (own : String → Bool) (a b : Frame) : Prop :=
  own a.id = true → a.IsCommit → b.id = a.id → b.request = none

structure Linked (own : String → Bool) (v : View) : Prop where
  owned : ∀ id c, v.calls id = some c → own id = true
  frames : ∀ f ∈ v.frames, own f.id = true → ∀ p, f.request = some p →
    ∃ c, v.calls f.id = some c ∧ c.Sent p
  single : ∀ id, own id = true → (admissions v.frames v.router).count id ≤ 1 ∧
    ((∀ c, v.calls id = some c → c.begun = false) → (admissions v.frames v.router).count id = 0)
  order : v.frames.Pairwise (Behind own)
  applied : ∀ u ∈ v.router.admitted, u.apply = true → own u.id = true →
    ∀ f ∈ v.frames, f.id = u.id → f.request = none
  uploads : ∀ u ∈ v.router.admitted, u.Ok ∧
    (own u.id = true → ∃ c, v.calls u.id = some c ∧ u.Made c)
  outbox : ∀ reply ∈ v.router.outbox, ∀ result, reply.result = some result →
    v.router.Bears reply.id result
  replies : ∀ id, own id = true → ∀ result, some result ∈ v.replies id → v.router.Bears id result
  started : ∀ id c, v.calls id = some c → c.started = true → v.router.Admits id
  returned : ∀ id c result, v.calls id = some c → c.status = .returned (some result) →
    result.outcome = .completed → v.router.Wrote id

theorem linked_init (own : String → Bool) : Linked own (System.view {}) := by
  constructor <;> simp [System.view, repliesOf, Handler.frames, Handler.replies, Router.admitted,
    admissions]

namespace Linked

variable {own : String → Bool} {v : View}

theorem lost (h : Linked own v) {frames : List Frame}
    {replies : String → List (Option WorkspaceWriteResultPayload)}
    (hframes : frames.Sublist v.frames) (hreplies : ∀ id, (replies id).Sublist (v.replies id)) :
    Linked own { v with frames := frames, replies := replies } where
  owned := h.owned
  frames f hf := h.frames f (hframes.subset hf)
  single id hown := by
    have hsub : List.Sublist (admissions frames v.router)
        (admissions v.frames v.router) :=
      List.Sublist.append_right ((hframes.filter _).map _) _
    obtain ⟨hone, hnone⟩ := h.single id hown
    have hcount := hsub.count_le id
    refine ⟨by simp only; omega, ?_⟩
    intro hbegun
    have hzero := hnone hbegun
    simp only
    omega
  order := h.order.sublist hframes
  applied u hu happly hown f hf := h.applied u hu happly hown f (hframes.subset hf)
  uploads := h.uploads
  outbox := h.outbox
  replies id hown result hresult := h.replies id hown result ((hreplies id).subset hresult)
  started := h.started
  returned := h.returned

theorem of_calls (h : Linked own v) {calls : String → Option Call}
    (howned : ∀ id c, calls id = some c → own id = true)
    (hkeep : ∀ id c, v.calls id = some c → ∃ c', calls id = some c' ∧ c.Le c')
    (hstarted : ∀ id c, calls id = some c → c.started = true → v.router.Admits id)
    (hreturned : ∀ id c result, calls id = some c → c.status = .returned (some result) →
      result.outcome = .completed → v.router.Wrote id) :
    Linked own { v with calls := calls } where
  owned := howned
  frames f hf hown p hp := by
    obtain ⟨c, hc, hsent⟩ := h.frames f hf hown p hp
    obtain ⟨c', hc', hle⟩ := hkeep _ c hc
    exact ⟨c', hc', hsent.mono hle⟩
  single id hown := by
    refine ⟨(h.single id hown).1, ?_⟩
    intro hbegun
    apply (h.single id hown).2
    intro c hc
    obtain ⟨c', hc', hle⟩ := hkeep id c hc
    by_contra hyes
    have hbegun' := hle.begun (by simpa using hyes)
    rw [hbegun c' hc'] at hbegun'
    cases hbegun'
  order := h.order
  applied := h.applied
  uploads u hu := by
    refine ⟨(h.uploads u hu).1, ?_⟩
    intro hown
    obtain ⟨c, hc, hmade⟩ := (h.uploads u hu).2 hown
    obtain ⟨c', hc', hle⟩ := hkeep _ c hc
    exact ⟨c', hc', hmade.mono hle⟩
  outbox := h.outbox
  replies := h.replies
  started := hstarted
  returned := hreturned

variable {id : String} {r : Router} {u u' : WorkspaceUpload}

section

variable (h : Linked own v)

include h

theorem set_call {c : Call} (hown : own id = true) (hle : ∀ c₀, v.calls id = some c₀ → c₀.Le c)
    (hstarted : c.started = true → v.router.Admits id)
    (hreturned : ∀ result, c.status = .returned (some result) → result.outcome = .completed →
      v.router.Wrote id) : Linked own { v with calls := Function.update v.calls id (some c) } := by
  refine h.of_calls ?_ ?_ ?_ ?_
  · intro id' c' hc'
    rcases GoMap.set_eq_some hc' with ⟨rfl, -⟩ | ⟨-, hold⟩
    · exact hown
    · exact h.owned id' c' hold
  · intro id' c' hc'
    by_cases heq : id' = id
    · subst heq
      exact ⟨c, Function.update_self .., hle c' hc'⟩
    · exact ⟨c', by rw [Function.update_of_ne heq, hc'], .refl c'⟩
  · intro id' c' hc' hyes
    rcases GoMap.set_eq_some hc' with ⟨rfl, rfl⟩ | ⟨-, hold⟩
    · exact hstarted hyes
    · exact h.started id' c' hold hyes
  · intro id' c' result hc' hyes
    rcases GoMap.set_eq_some hc' with ⟨rfl, rfl⟩ | ⟨-, hold⟩
    · exact hreturned result hyes
    · exact h.returned id' c' result hold hyes

theorem called {c : Call} (hown : own id = true) (hfresh : v.calls id = none)
    (hstage : c.stage = .begin) (hstatus : c.status = .sending ∨ c.status = .returned none) :
    Linked own { v with calls := Function.update v.calls id (some c) } := by
  refine h.set_call hown ?_ ?_ ?_
  · intro c₀ hc₀
    rw [hfresh] at hc₀
    cases hc₀
  · simp [Call.started, hstage]
  · intro result hresult
    rcases hstatus with hs | hs <;> simp [hs] at hresult

theorem gaveUp {c : Call} (hc : v.calls id = some c) :
    Linked own { v with
      calls := Function.update v.calls id (some { c with status := .returned none }) } := by
  refine h.set_call (h.owned id c hc) ?_ (h.started id c hc) (by simp)
  intro c₀ hc₀
  cases hc.symm.trans hc₀
  exact c.le_returned none

theorem exchanged {c : Call} {reply : Option WorkspaceWriteResultPayload}
    {rest : List (Option WorkspaceWriteResultPayload)} (hc : v.calls id = some c)
    (hreply : v.replies id = reply :: rest) :
    Linked own { v with
      calls := Function.update v.calls id (some (c.exchanged reply))
      replies := Function.update v.replies id rest } := by
  have hown := h.owned id c hc
  have hbears : ∀ result, reply = some result → v.router.Bears id result := by
    intro result hresult
    exact h.replies id hown result (by simp [hreply, hresult])
  have hmoved : Linked own { v with
      calls := Function.update v.calls id (some (c.exchanged reply)) } := by
    refine h.set_call hown ?_ ?_ ?_
    · intro c₀ hc₀
      cases hc.symm.trans hc₀
      exact c.le_exchanged reply
    · intro hstarted
      by_cases hbefore : c.started = true
      · exact h.started id c hc hbefore
      · have hstage : c.stage = .begin := by simpa [Call.started] using hbefore
        rcases c.exchanged_cases reply with heq | ⟨result, hresult, heq | ⟨-, houtcome, heq⟩⟩
        · simp [heq, Call.started, hstage] at hstarted
        · simp [heq, Call.started, hstage] at hstarted
        · apply (hbears result hresult).ready
          rw [houtcome, Call.expected, hstage]
    · intro result hstatus hcompleted
      rcases c.exchanged_cases reply with heq | ⟨result', hresult, heq | ⟨-, -, heq⟩⟩
      · simp [heq] at hstatus
      · obtain rfl : result' = result := by simpa [heq] using hstatus
        exact (hbears result' hresult).completed hcompleted
      · simp [heq] at hstatus
  refine hmoved.lost (List.Sublist.refl _) ?_
  intro id'
  by_cases heq : id' = id
  · subst heq
    rw [Function.update_self, hreply]
    exact List.sublist_cons_self reply rest
  · rw [Function.update_of_ne heq]

theorem push {f : Frame}
    (hsent : own f.id = true → ∀ p, f.request = some p → ∃ c, v.calls f.id = some c ∧ c.Sent p)
    (hbegin : own f.id = true → f.isBegin = true →
      (admissions v.frames v.router).count f.id = 0 ∧ ∃ c, v.calls f.id = some c ∧ c.begun = true)
    (hlast : own f.id = true → f.request ≠ none →
      (∀ a ∈ v.frames, a.id = f.id → ¬ a.IsCommit) ∧
        ∀ u ∈ v.router.admitted, u.id = f.id → u.apply = false) :
    Linked own { v with frames := v.frames ++ [f] } := by
  refine { h with frames := ?_, single := ?_, order := ?_, applied := ?_ }
  · exact forall_mem_concat h.frames hsent
  · intro id hown
    obtain ⟨hone, hnone⟩ := h.single id hown
    have hcount : (admissions (v.frames ++ [f]) v.router).count id =
        (admissions v.frames v.router).count id + if f.isBegin = true ∧ f.id = id then 1 else 0 := by
      cases hf : f.isBegin <;> by_cases heq : f.id = id <;>
        simp [admissions, hf, heq, List.count_append]
      omega
    by_cases hnew : f.isBegin = true ∧ f.id = id
    · obtain ⟨hzero, c, hc, hbegun⟩ := hbegin (hnew.2 ▸ hown) hnew.1
      rw [hnew.2] at hzero hc
      simp only [hcount, hzero, hnew, and_self, if_true]
      refine ⟨by omega, ?_⟩
      intro hbefore
      rw [hbefore c hc] at hbegun
      cases hbegun
    · simp only [hcount, if_neg hnew, Nat.add_zero]
      exact ⟨hone, hnone⟩
  · refine pairwise_concat h.order fun a ha hown hcommit hid => ?_
    by_contra hsome
    exact (hlast (hid ▸ hown) hsome).1 a ha hid.symm hcommit
  · intro u hu happly hown g hg hid
    rcases mem_concat hg with hg | rfl
    · exact h.applied u hu happly hown g hg hid
    · by_contra hsome
      have hnot := (hlast (hid ▸ hown) hsome).2 u hu hid.symm
      rw [happly] at hnot
      cases hnot

theorem sent {c : Call} {size : Nat} (hc : v.calls id = some c) (hsending : c.status = .sending) :
    Linked own { v with
      calls := Function.update v.calls id (some { c with status := .awaiting })
      frames := v.frames ++ [⟨id, size, some c.payload⟩] } := by
  have hown := h.owned id c hc
  have hnot : c.committed = false := by simp [Call.committed, hsending]
  have hmoved : Linked own { v with
      calls := Function.update v.calls id (some { c with status := .awaiting }) } := by
    refine h.set_call hown ?_ (h.started id c hc) (by simp)
    intro c₀ hc₀
    cases hc.symm.trans hc₀
    exact c.le_awaiting
  refine hmoved.push ?_ ?_ ?_
  · intro _ p hp
    obtain rfl := Option.some.inj (Frame.request_eq_some hp).1
    exact ⟨_, Function.update_self .., c.sent_payload⟩
  · intro _ hbegin
    obtain ⟨p, hp, hstep⟩ := Frame.isBegin_eq_true hbegin
    obtain rfl := Option.some.inj (Frame.request_eq_some hp).1
    have hstage := c.stage_of_payload hstep
    have hbegun : c.begun = false := by simp [Call.begun, hstage, hsending]
    refine ⟨(h.single id hown).2 ?_, _, Function.update_self .., by simp [Call.begun]⟩
    intro c₀ hc₀
    cases hc.symm.trans hc₀
    exact hbegun
  · intro _ _
    constructor
    · intro a ha hid hcommit
      obtain ⟨p, hp, hstep⟩ := hcommit
      obtain ⟨c₀, hc₀, hsent⟩ := h.frames a ha (by rw [hid]; exact hown) p hp
      rw [hid] at hc₀
      cases hc.symm.trans hc₀
      rw [hsent.committed hstep] at hnot
      cases hnot
    · intro u hu hid
      by_contra happly
      obtain ⟨c₀, hc₀, hmade⟩ := (h.uploads u hu).2 (by rw [hid]; exact hown)
      rw [hid] at hc₀
      cases hc.symm.trans hc₀
      rw [hmade.committed (by simpa using happly)] at hnot
      cases hnot

theorem strayFrame {env : Frame} (hstray : env.request = none ∨ own env.id = false) :
    Linked own { v with frames := v.frames ++ [env] } := by
  have hnone : own env.id = true → env.request = none := by
    intro hown
    rcases hstray with hnone | hforeign
    · exact hnone
    · rw [hown] at hforeign
      cases hforeign
  refine h.push ?_ ?_ ?_
  · intro hown p hp
    rw [hnone hown] at hp
    cases hp
  · intro hown hbegin
    simp [Frame.isBegin, hnone hown] at hbegin
  · intro hown hsome
    exact absurd (hnone hown) hsome

theorem reply {replies : List (Option WorkspaceWriteResultPayload)}
    (hreplies : own id = true → ∀ result, some result ∈ replies →
      some result ∈ v.replies id ∨ v.router.Bears id result) :
    Linked own { v with replies := Function.update v.replies id replies } := by
  refine { h with replies := ?_ }
  intro id' hown result hresult
  change some result ∈ Function.update v.replies id replies id' at hresult
  by_cases heq : id' = id
  · subst heq
    rw [Function.update_self] at hresult
    rcases hreplies hown result hresult with hold | hnew
    · exact h.replies id' hown result hold
    · exact hnew
  · rw [Function.update_of_ne heq] at hresult
    exact h.replies id' hown result hresult

theorem of_router {frames : List Frame} (hframes : frames.Sublist v.frames)
    (hcount : ∀ id, (admissions frames r).count id = (admissions v.frames v.router).count id)
    (hkept : ∀ w ∈ v.router.admitted,
      ∃ w' ∈ r.admitted, w'.id = w.id ∧ (w.calls ≠ [] → w'.calls ≠ []))
    (hnew : ∀ w ∈ r.admitted, w ∈ v.router.admitted ∨
      w.Ok ∧ (own w.id = true → ∃ c, v.calls w.id = some c ∧ w.Made c) ∧
        (w.apply = true → own w.id = true → ∀ f ∈ frames, f.id = w.id → f.request = none))
    (houtbox : ∀ reply ∈ r.outbox, reply ∈ v.router.outbox ∨
      ∀ result, reply.result = some result → r.Bears reply.id result) :
    Linked own { v with frames := frames, router := r } := by
  have hrest := h.lost hframes fun id => List.Sublist.refl (v.replies id)
  have hwrote : ∀ id, v.router.Wrote id → r.Wrote id := by
    rintro id ⟨w, hw, hid, hcalls⟩
    obtain ⟨w', hw', hsame, hkeeps⟩ := hkept w hw
    exact ⟨w', hw', hsame.trans hid, hkeeps hcalls⟩
  have hadmits : ∀ id, v.router.Admits id → r.Admits id := by
    rintro id ⟨w, hw, hid⟩
    obtain ⟨w', hw', hsame, -⟩ := hkept w hw
    exact ⟨w', hw', hsame.trans hid⟩
  refine { hrest with
    single := ?_
    applied := ?_
    uploads := ?_
    outbox := ?_
    replies := ?_
    started := ?_
    returned := ?_ }
  · intro id hown
    simp only [hcount]
    exact h.single id hown
  · intro w hw happly hown
    rcases hnew w hw with hw | ⟨-, -, happlied⟩
    · exact hrest.applied w hw happly hown
    · exact happlied happly hown
  · intro w hw
    rcases hnew w hw with hw | ⟨hok, hmade, -⟩
    · exact h.uploads w hw
    · exact ⟨hok, hmade⟩
  · intro reply hreply result hresult
    rcases houtbox reply hreply with hbefore | hbears
    · exact (h.outbox reply hbefore result hresult).mono (hwrote _) (hadmits _)
    · exact hbears result hresult
  · intro id hown result hresult
    exact (h.replies id hown result hresult).mono (hwrote id) (hadmits id)
  · intro id c hc hstarted
    exact hadmits id (h.started id c hc hstarted)
  · intro id c result hc hstatus houtcome
    exact hwrote id (h.returned id c result hc hstatus houtcome)

theorem replace {pre : List WorkspaceUpload} (hold : v.router.admitted = pre ++ [u])
    (hnew : r.admitted = pre ++ [u']) (hid : u'.id = u.id) (hok : u'.Ok)
    (hmade : own u.id = true → ∀ c, v.calls u.id = some c → u.Made c → u'.Made c)
    (happlied : u'.apply = true → own u.id = true → ∀ f ∈ v.frames, f.id = u.id → f.request = none)
    (hcalls : u.calls ≠ [] → u'.calls ≠ []) (houtbox : ∀ reply ∈ r.outbox, reply ∈ v.router.outbox ∨
      ∀ result, reply.result = some result → r.Bears reply.id result) :
    Linked own { v with router := r } := by
  refine h.of_router (List.Sublist.refl _) ?_ ?_ ?_ houtbox
  · simp [admissions, hold, hnew, hid]
  · simp only [hold, hnew, List.mem_append, List.mem_singleton]
    rintro w (hw | rfl)
    · exact ⟨w, .inl hw, rfl, id⟩
    · exact ⟨u', .inr rfl, hid, hcalls⟩
  · simp only [hold, hnew, List.mem_append, List.mem_singleton]
    rintro w (hw | rfl)
    · exact .inl (.inl hw)
    · refine .inr ⟨hok, ?_, by rw [hid]; exact happlied⟩
      intro hown
      rw [hid] at hown ⊢
      obtain ⟨c, hc, hm⟩ := (h.uploads u (by simp [hold])).2 hown
      exact ⟨c, hc, hmade hown c hc hm⟩

theorem begun {env : Frame} {rest : List Frame} {request : WorkspaceWritePayload}
    (hframes : v.frames = env :: rest) (hrequest : env.request = some request)
    (hbegin : request.step = .begin) (hfree : v.router.workspaceWrite = none) :
    Linked own { v with
      frames := rest
      router := { v.router with
        workspaceWrite := some { id := env.id, request := request } } } := by
  have hadmitted : Router.admitted { v.router with
      workspaceWrite := some { id := env.id, request := request } } =
      v.router.admitted ++ [{ id := env.id, request := request }] := by
    simp [Router.admitted, hfree]
  refine h.of_router (hframes ▸ List.sublist_cons_self env rest) ?_ ?_ ?_
    fun _ hreply => .inl hreply
  · intro id
    have henv : env.isBegin = true := by simp [Frame.isBegin, hrequest, hbegin]
    simp only [admissions, hadmitted, hframes, List.filter_cons, henv, if_true, List.map_cons,
      List.map_append, List.map_nil, List.count_append, List.count_cons, List.count_nil]
    omega
  · intro w hw
    exact ⟨w, by simp [hadmitted, hw], rfl, id⟩
  · intro w hw
    rw [hadmitted] at hw
    rcases mem_concat hw with hw | rfl
    · exact .inl hw
    · refine .inr ⟨WorkspaceUpload.ok_new .., ?_, by simp⟩
      intro hown
      obtain ⟨c, hc, hsent⟩ := h.frames env (by simp [hframes]) hown request hrequest
      exact ⟨c, hc, hsent.request hbegin, by simp [WorkspaceUpload.bodies], by simp⟩

end

theorem chunk_prefix {data body : Bytes} {offset : Nat} (hbody : body <+: data)
    (hoffset : offset = body.length) :
    body ++ (chunkPayload data offset).data <+: data := by
  obtain ⟨tail, rfl⟩ := hbody
  subst hoffset
  simp only [chunkPayload, List.drop_left]
  exact (List.prefix_append_right_inj body).mpr (List.take_prefix _ tail)

theorem taken (h : Linked own v) {env : Frame} {rest : List Frame} {request : WorkspaceWritePayload}
    {result : Option WorkspaceWriteResultPayload} (hframes : v.frames = env :: rest)
    (hrequest : env.request = some request) (hu : v.router.workspaceWrite = some u)
    (hid : u.id = env.id) (htaken : u.Taken request u' result) :
    Linked own { v with
      frames := rest
      router := { v.router with workspaceWrite := some u' } } := by
  have hrest : Linked own { v with frames := rest } :=
    h.lost (hframes ▸ List.sublist_cons_self env rest) fun _ => List.Sublist.refl _
  have hadmitted : v.router.admitted = v.router.retired ++ [u] := by
    simp [Router.admitted, hu]
  have hmem : u ∈ v.router.admitted := by simp [hadmitted]
  have hok := (h.uploads u hmem).1
  have hsent : own u.id = true → ∀ c, v.calls u.id = some c → c.Sent request := by
    intro hown c hc
    rw [hid] at hown hc
    obtain ⟨c', hc', hsent⟩ := h.frames env (by simp [hframes]) hown request hrequest
    cases hc.symm.trans hc'
    exact hsent
  have hsame : u'.id = u.id ∧ u'.request = u.request ∧ u'.worker = u.worker ∧ u'.calls = u.calls := by
    cases htaken <;> simp
  refine hrest.replace (r := { v.router with workspaceWrite := some u' }) hadmitted rfl hsame.1
    (hok.taken htaken) ?_ ?_ ?_ fun _ hreply => .inl hreply
  · intro hown c hc hmade
    cases htaken with
    | ignored => exact hmade
    | received hopen hchunk hoffset =>
      refine ⟨hmade.request, ?_, hmade.committed⟩
      intro data hdata
      have hbody := hmade.bodies u.data (WorkspaceUpload.mem_bodies.mpr (.inl rfl))
      rcases WorkspaceUpload.mem_bodies.mp hdata with rfl | hdata
      · rcases hsent hown c hc with ⟨rfl, -⟩ | ⟨⟨offset, rfl⟩, -⟩ | ⟨rfl, -⟩
        · rw [c.begins] at hchunk
          cases hchunk
        · have hlength : (offset : Int) = u.data.length := hoffset
          exact chunk_prefix hbody (by omega)
        · cases hchunk
      · exact hmade.bodies data (WorkspaceUpload.mem_bodies.mpr (.inr hdata))
    | closed hopen hcommit =>
      refine ⟨hmade.request, ?_, ?_⟩
      · intro data hdata
        exact hmade.bodies data (WorkspaceUpload.mem_bodies.mpr
          (WorkspaceUpload.mem_bodies.mp hdata))
      · intro happly
        exact (hsent hown c hc).committed (hcommit happly).1
  · intro happly hown f hf hfid
    cases htaken with
    | ignored | received => exact hrest.applied u hmem happly hown f hf hfid
    | closed hopen hcommit =>
      have horder := h.order
      rw [hframes] at horder
      have hlast := (List.pairwise_cons.mp horder).1 f hf
      exact hlast (hid ▸ hown) ⟨request, hrequest, (hcommit happly).1⟩ (hfid.trans hid)
  · rw [hsame.2.2.2]
    exact id

theorem handled (h : Linked own v) {env : Frame} {rest : List Frame}
    {result : Option WorkspaceWriteResultPayload} (hframes : v.frames = env :: rest)
    (hhandled : v.router.Handled env r result) :
    Linked own { v with
      frames := rest
      router := r
      replies := Function.update v.replies env.id
        (v.replies env.id ++ (result.map some).toList) } := by
  have hrest : Linked own { v with frames := rest } :=
    h.lost (hframes ▸ List.sublist_cons_self env rest) fun _ => List.Sublist.refl _
  suffices hkey : Linked own { v with frames := rest, router := r } ∧
      ∀ answer, result = some answer → r.Bears env.id answer by
    refine hkey.1.reply ?_
    intro _ answer hanswer
    rcases List.mem_append.mp hanswer with hold | hnew
    · exact .inl hold
    · exact .inr (hkey.2 answer (by simpa using hnew))
  have hrejected : ∀ code answer, some (rejectedWorkspaceWrite code) = some answer →
      v.router.Bears env.id answer := by
    intro code answer hanswer
    cases hanswer
    exact Router.bears_rejected ..
  cases hhandled with
  | ignored => exact ⟨hrest, by simp⟩
  | malformed | refused | stale => exact ⟨hrest, hrejected _⟩
  | begun hrequest hbegin hfree =>
    refine ⟨h.begun hframes hrequest hbegin hfree, ?_⟩
    intro answer hanswer
    cases hanswer
    refine ⟨by simp, fun _ => ⟨_, List.mem_concat_self, rfl⟩⟩
  | @taken request u hrequest hstep hu hid =>
    have hmem : u ∈ v.router.admitted := by simp [Router.admitted, hu]
    have htaken := WorkspaceUpload.takeFrame_taken (h.uploads u hmem).1 request
    refine ⟨h.taken hframes hrequest hu hid htaken, ?_⟩
    intro answer hanswer
    rw [hanswer] at htaken
    constructor <;> simp [htaken.outcome]

theorem current (h : Linked own v) (hu : v.router.workspaceWrite = some u) :
    v.router.admitted = v.router.retired ++ [u] ∧ u ∈ v.router.admitted ∧ u.Ok := by
  have hadmitted : v.router.admitted = v.router.retired ++ [u] := by simp [Router.admitted, hu]
  have hmem : u ∈ v.router.admitted := by simp [hadmitted]
  exact ⟨hadmitted, hmem, (h.uploads u hmem).1⟩

theorem tookBody (h : Linked own v) (htake : v.router.takeBody = some r) :
    Linked own { v with router := r } := by
  obtain ⟨u, hu, hworker, rfl⟩ := Router.takeBody_eq_some htake
  obtain ⟨hadmitted, hmem, hok⟩ := h.current hu
  refine h.replace hadmitted rfl rfl (hok.tookBody hworker _) ?_ (h.applied u hmem) id
    fun _ hreply => .inl hreply
  intro hown c hc hmade
  refine ⟨hmade.request, ?_, hmade.committed⟩
  intro data hdata
  rcases WorkspaceUpload.mem_bodies.mp hdata with rfl | hworker' | hcalls
  · exact List.nil_prefix
  · have hdata' : data = u.data := by
      simp only [WorkspaceUpload.tookBody] at hworker'
      split at hworker'
      · exact (Worker.applying.inj hworker').symm
      · cases hworker'
    exact hmade.bodies data (WorkspaceUpload.mem_bodies.mpr (.inl hdata'))
  · exact hmade.bodies data (WorkspaceUpload.mem_bodies.mpr (.inr (.inr hcalls)))

theorem wroteLocal (h : Linked own v) {answer : WriteAnswer}
    (hwrite : v.router.writeWorkspaceFile answer = some r) : Linked own { v with router := r } := by
  obtain ⟨u, body, hu, hworker, rfl⟩ := Router.writeWorkspaceFile_eq_some hwrite
  obtain ⟨hadmitted, hmem, hok⟩ := h.current hu
  refine h.replace hadmitted rfl rfl (hok.wrote hworker answer) ?_ (h.applied u hmem)
    (by simp [WorkspaceUpload.wrote]) fun _ hreply => .inl hreply
  intro hown c hc hmade
  refine ⟨hmade.request, ?_, hmade.committed⟩
  intro data hdata
  apply hmade.bodies data
  rw [WorkspaceUpload.mem_bodies] at hdata ⊢
  rcases hdata with hdata | hdata | ⟨call, hcall, hdata⟩
  · exact .inl hdata
  · cases hdata
  · rcases mem_concat hcall with hcall | rfl
    · exact .inr (.inr ⟨call, hcall, hdata⟩)
    · exact .inr (.inl (hworker.trans (congrArg _ hdata)))

theorem recorded (h : Linked own v) (hrecord : v.router.recordResult = some r) :
    Linked own { v with router := r } := by
  obtain ⟨u, result, hu, hworker, houtbox, hcases⟩ := Router.recordResult_eq_some hrecord
  obtain ⟨hadmitted, hmem, hok⟩ := h.current hu
  have hnew : r.admitted = v.router.retired ++ [u.settle result] := by
    rcases hcases with ⟨-, hwrite, hretired⟩ | ⟨-, hwrite, hretired⟩
    · simp [Router.admitted, hwrite, hretired]
    · simp [Router.admitted, hwrite, hretired]
  refine h.replace hadmitted hnew rfl (hok.settle hworker) ?_ (h.applied u hmem) id ?_
  · intro hown c hc hmade
    refine ⟨hmade.request, ?_, hmade.committed⟩
    intro data hdata
    apply hmade.bodies data
    rw [WorkspaceUpload.mem_bodies] at hdata ⊢
    rcases hdata with hdata | hdata | hdata
    · exact .inl hdata
    · cases hdata
    · exact .inr (.inr hdata)
  · intro reply hreply
    rw [houtbox] at hreply
    rcases mem_concat hreply with hreply | rfl
    · exact .inl hreply
    · refine .inr ?_
      intro result' hresult
      cases hresult
      obtain ⟨hready, hcompleted⟩ := hok.finishing result hworker
      refine ⟨?_, fun hyes => absurd hyes hready⟩
      intro hyes
      exact ⟨u.settle result, by simp [hnew], rfl, hcompleted hyes⟩

theorem sameUploads (h : Linked own v) (hsame : r.admitted = v.router.admitted)
    (houtbox : r.outbox.Sublist v.router.outbox) : Linked own { v with router := r } := by
  refine h.of_router (List.Sublist.refl _) (by simp [admissions, hsame]) ?_ ?_
    fun _ hreply => .inl (houtbox.subset hreply)
  · exact fun w hw => ⟨w, hsame ▸ hw, rfl, id⟩
  · exact fun w hw => .inl (hsame ▸ hw)

theorem eraseOutbox (h : Linked own v) (i : Nat) :
    Linked own { v with router := { v.router with outbox := v.router.outbox.eraseIdx i } } :=
  h.sameUploads rfl (List.eraseIdx_sublist _ i)

theorem step (h : Linked own v) {a : Label} {v' : View} (hchange : Change own a v v') :
    Linked own v' := by
  cases hchange with
  | lost hframes hreplies => exact h.lost hframes hreplies
  | shutdown => exact h.sameUploads rfl (List.Sublist.refl _)
  | called hown hfresh hstage hstatus => exact h.called hown hfresh hstage hstatus
  | gaveUp hc => exact h.gaveUp hc
  | sent hc hsending => exact h.sent hc hsending
  | exchanged hc hawaiting hreply => exact h.exchanged hc hreply
  | strayFrame hstray => exact h.strayFrame hstray
  | @strayReply _ _ reply pre post hstray hreplies =>
    refine h.reply ?_
    intro hown result hresult
    rcases hstray with hnone | hforeign
    · refine .inl ?_
      rw [hreplies]
      simpa [hnone] using hresult
    · rw [hown] at hforeign
      cases hforeign
  | handled hframes hhandled => exact h.handled hframes hhandled
  | tookBody htake => exact h.tookBody htake
  | wroteLocal hwrite => exact h.wroteLocal hwrite
  | recorded hrecord => exact h.recorded hrecord
  | @sentResult _ _ i reply pre post hreply hreplies =>
    refine (h.eraseOutbox i).reply ?_
    intro _ result hresult
    have hbears := h.outbox reply (List.mem_of_getElem? hreply) result
    rcases List.mem_append.mp hresult with hresult | hresult
    · exact .inl (by rw [hreplies]; exact List.mem_append_left _ hresult)
    · rcases List.mem_cons.mp hresult with hresult | hresult
      · exact .inr ((hbears hresult.symm).mono id id)
      · exact .inl (by rw [hreplies]; exact List.mem_append_right _ hresult)
  | droppedResult => exact h.eraseOutbox _

end Linked

end Parsar.WorkspaceWrite
