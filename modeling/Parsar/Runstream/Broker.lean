import Mathlib.Data.List.DropRight
import Parsar.GoStd.Map

namespace Parsar.Runstream

open GoStd

variable {ε : Type*}

/-- A buffered channel with what was received from it. To send on it or to close it after its close
panics. -/
structure Chan (ε : Type*) where
  cap : Nat
  buf : List ε := []
  taken : List ε := []
  closes : Nat := 0
  panicked : Bool := false

namespace Chan

def carries (ch : Chan ε) : List ε := ch.taken ++ ch.buf

def isFull (ch : Chan ε) : Bool := ch.cap ≤ ch.buf.length

def push (ch : Chan ε) (x : ε) : Chan ε :=
  if ch.closes = 0 then { ch with buf := ch.buf ++ [x] } else { ch with panicked := true }

/-- A send in a `select` with a default case. -/
def trySend (ch : Chan ε) (x : ε) : Chan ε :=
  if ch.closes = 0 ∧ ch.isFull then ch else ch.push x

def send (ch : Chan ε) (x : ε) : Option (Chan ε) :=
  if ch.closes = 0 ∧ ch.isFull then none else some (ch.push x)

def close (ch : Chan ε) : Chan ε :=
  if ch.closes = 0 then { ch with closes := 1 } else { ch with panicked := true }

def receive (ch : Chan ε) : Chan ε :=
  match ch.buf with
  | [] => ch
  | x :: rest => { ch with buf := rest, taken := ch.taken ++ [x] }

theorem receive_same (ch : Chan ε) : ch.receive.carries = ch.carries ∧
    ch.receive.closes = ch.closes ∧ ch.receive.panicked = ch.panicked := by
  unfold receive
  split
  · exact ⟨rfl, rfl, rfl⟩
  · rename_i x rest hbuf
    simp [carries, hbuf]

theorem sendAll_open {ch : Chan ε} {xs : List ε} (h : ch.closes = 0)
    (hroom : ch.buf.length + xs.length ≤ ch.cap) :
    xs.foldlM send ch = some { ch with buf := ch.buf ++ xs } := by
  induction xs generalizing ch with
  | nil => simp
  | cons x xs ih =>
    have hsend : ch.send x = some { ch with buf := ch.buf ++ [x] } := by
      have hfree : ¬ ch.cap ≤ ch.buf.length := by
        simp only [List.length_cons] at hroom
        omega
      simp [send, push, h, isFull, hfree]
    have hrest := @ih { ch with buf := ch.buf ++ [x] } h (by
      simp only [List.length_append, List.length_cons, List.length_nil] at hroom ⊢
      omega)
    simpa [hsend] using hrest

end Chan

def defaultBufferSize : Nat := 64

@[ext] structure RunState (ε : Type*) where
  events : List ε := []
  closed : Bool := false

/-- A channel that `Subscribe` has returned; `full` remembers that an event found the buffer full.
-/
structure Subscriber (ε : Type*) where
  run : String
  ch : Chan ε
  listed : Bool
  full : Bool := false

structure Broker (ε : Type*) where
  bufferSize : Nat
  runs : GoMap String (RunState ε) := GoMap.empty
  subs : List (Subscriber ε) := []

def newBroker (bufferSize : Int) : Broker ε :=
  { bufferSize := if bufferSize ≤ 0 then defaultBufferSize else bufferSize.toNat }

/-- The calls; `cancel` is the end of a subscriber's context, whose goroutine unsubscribes it. -/
inductive Action (ε : Type*) where
  | publish (run : String) (ev : ε)
  | subscribe (run : String)
  | finish (run : String)
  | cancel (i : Nat)
  | receive (i : Nat)

namespace Subscriber

def offer (sub : Subscriber ε) (ev : ε) : Subscriber ε :=
  { sub with ch := sub.ch.trySend ev, full := sub.full || sub.ch.isFull }

def remove (sub : Subscriber ε) : Subscriber ε := { sub with ch := sub.ch.close, listed := false }

end Subscriber

namespace Broker

def stateLocked (b : Broker ε) (run : String) : RunState ε := (b.runs run).getD {}

def trim (bufferSize : Nat) (events : List ε) : List ε :=
  if events.length > bufferSize then events.drop (events.length - bufferSize) else events

def publish (b : Broker ε) (run : String) (ev : ε) : Broker ε :=
  if run = "" then b
  else
    let st := b.stateLocked run
    -- a finished run is known, and nothing is created
    if st.closed then b
    else { b with
      runs := b.runs.set run { st with events := trim b.bufferSize (st.events ++ [ev]) }
      subs := b.subs.map fun sub => if sub.run = run ∧ sub.listed then sub.offer ev else sub }

/-- Nothing comes back when the replay waits for room, with the mutex held. -/
def subscribe (b : Broker ε) (run : String) : Option (Broker ε) :=
  let out : Chan ε := { cap := b.bufferSize }
  if run = "" then
    some { b with subs := b.subs ++ [{ run := run, ch := out.close, listed := false }] }
  else do
    let st := b.stateLocked run
    let out ← st.events.foldlM Chan.send out
    some { b with
      runs := b.runs.set run st
      subs := b.subs ++ [if st.closed then { run := run, ch := out.close, listed := false }
        else { run := run, ch := out, listed := true }] }

def finish (b : Broker ε) (run : String) : Broker ε :=
  if run = "" then b
  else
    match b.runs run with
    | none => b
    | some st =>
      if st.closed then b
      else { b with
        runs := b.runs.set run { st with closed := true }
        subs := b.subs.map fun sub => if sub.run = run ∧ sub.listed then sub.remove else sub }

def unsubscribe (b : Broker ε) (i : Nat) : Broker ε :=
  { b with subs := b.subs.modify i fun sub =>
      if (b.runs sub.run).isSome ∧ sub.listed then sub.remove else sub }

def step (b : Broker ε) : Action ε → Option (Broker ε)
  | .publish run ev => some (b.publish run ev)
  | .subscribe run => b.subscribe run
  | .finish run => some (b.finish run)
  | .cancel i => some (b.unsubscribe i)
  | .receive i =>
    some { b with subs := b.subs.modify i fun sub => { sub with ch := sub.ch.receive } }

end Broker

def published (run : String) (as : List (Action ε)) : List ε :=
  as.filterMap fun
    | .publish r ev => if r = run then some ev else none
    | _ => none

def ends (run : String) (i : Option Nat) : Action ε → Bool
  | .finish r => r = run
  | .cancel j => i = some j
  | _ => false

/-- The events of a run up to its end, for the given subscriber. -/
def heard (run : String) (i : Option Nat) (as : List (Action ε)) : List ε :=
  published run (as.takeWhile (!ends run i ·))

theorem ends_of_none {run : String} {i : Option Nat} {a : Action ε} (h : ends run none a = true) :
    ends run i a = true := by
  cases a <;> simp_all [ends]

/-- `Finish` of the run comes only after something was published or subscribed for it. -/
def KnownRun (run : String) (b : Broker ε) : Action ε → Prop
  | .finish finished => finished = run → (b.runs run).isSome
  | _ => True

@[simp] theorem heard_nil (run : String) (i : Option Nat) : (heard run i [] : List ε) = [] := rfl

theorem published_cons (run : String) (a : Action ε) (as : List (Action ε)) :
    published run (a :: as) = published run [a] ++ published run as :=
  List.filterMap_append (l := [a])

theorem heard_cons (run : String) (i : Option Nat) (a : Action ε) (as : List (Action ε)) :
    heard run i (a :: as) = published run [a] ++ if ends run i a then [] else heard run i as := by
  cases h : ends run i a with
  | true => cases a <;> simp_all [heard, ends, published]
  | false => simpa [heard, h] using published_cons run a _

namespace Subscriber

def react (i : Nat) (sub : Subscriber ε) : Action ε → Subscriber ε
  | .publish run ev => if sub.run = run ∧ sub.listed then sub.offer ev else sub
  | .finish run => if sub.run = run ∧ sub.listed then sub.remove else sub
  | .cancel j => if j = i ∧ sub.listed then sub.remove else sub
  | .receive j => if j = i then { sub with ch := sub.ch.receive } else sub
  | .subscribe _ => sub

theorem react_run (i : Nat) (sub : Subscriber ε) (a : Action ε) :
    (sub.react i a).run = sub.run := by
  cases a <;> simp only [react, offer, remove] <;> split_ifs <;> rfl

theorem react_listed (i : Nat) (sub : Subscriber ε) (a : Action ε) :
    (sub.react i a).listed = (sub.listed && !ends sub.run (some i) a) := by
  cases a <;> grind [react, offer, remove, ends]

def Ok (sub : Subscriber ε) : Prop :=
  sub.ch.panicked = false ∧ sub.ch.closes = if sub.listed then 0 else 1

structure Takes (evs : List ε) (sub sub' : Subscriber ε) : Prop where
  ok : sub'.Ok
  full : sub.full = true → sub'.full = true
  carries : sub'.ch.carries.Sublist (sub.ch.carries ++ evs)
  exact : sub'.full = false →
    sub'.ch.carries = sub.ch.carries ++ if sub.listed then evs else []

variable {i : Nat} {sub : Subscriber ε}

theorem Ok.open (h : sub.Ok) (hlisted : sub.listed = true) : sub.ch.closes = 0 := by
  simp [h.2, hlisted]

theorem Ok.idle {evs : List ε} (h : sub.Ok) (hquiet : sub.listed = true → evs = []) :
    Takes evs sub sub := by
  refine ⟨h, id, List.sublist_append_left _ _, fun _ => ?_⟩
  split_ifs with hlisted
  · rw [hquiet hlisted, List.append_nil]
  · rw [List.append_nil]

theorem Ok.remove (h : sub.Ok) (hlisted : sub.listed = true) : Takes [] sub sub.remove := by
  have hclose : sub.remove = { sub with ch := { sub.ch with closes := 1 }, listed := false } := by
    simp [Subscriber.remove, Chan.close, h.open hlisted]
  rw [hclose]
  exact ⟨⟨h.1, rfl⟩, id, List.sublist_append_left _ _, fun _ => by simp [Chan.carries]⟩

theorem Ok.offer (h : sub.Ok) (hlisted : sub.listed = true) (ev : ε) :
    Takes [ev] sub (sub.offer ev) := by
  cases hfull : sub.ch.isFull with
  | true =>
    have hsame : sub.offer ev = { sub with full := true } := by
      simp [Subscriber.offer, Chan.trySend, h.open hlisted, hfull]
    rw [hsame]
    exact ⟨h, fun _ => rfl, List.sublist_append_left _ _, nofun⟩
  | false =>
    have hpush : sub.offer ev = { sub with ch := { sub.ch with buf := sub.ch.buf ++ [ev] } } := by
      simp [Subscriber.offer, Chan.trySend, Chan.push, h.open hlisted, hfull]
    rw [hpush]
    exact ⟨h, id, by simp [Chan.carries], by simp [Chan.carries, hlisted]⟩

theorem Ok.receive (h : sub.Ok) : Takes [] sub { sub with ch := sub.ch.receive } := by
  obtain ⟨hcarries, hcloses, hcalm⟩ := sub.ch.receive_same
  exact ⟨by simpa [Ok, hcloses, hcalm] using h, id, by simp [hcarries], by simp [hcarries]⟩

theorem Ok.step (h : sub.Ok) (a : Action ε) : Takes (published sub.run [a]) sub
    (sub.react i a) := by
  cases a with
  | subscribe run => exact h.idle fun _ => rfl
  | receive j =>
    rw [react]
    split_ifs
    · exact h.receive
    · exact h.idle fun _ => rfl
  | publish run ev =>
    rw [react]
    split_ifs with hit
    · simpa [published, hit.1] using h.offer hit.2 ev
    · exact h.idle fun hlisted => by grind [published]
  | finish | cancel =>
    rw [react]
    split_ifs with hit
    · exact h.remove hit.2
    · exact h.idle fun _ => rfl

theorem Ok.foldl (h : sub.Ok) (as : List (Action ε)) : ∃ sub', as.foldl (react i) sub = sub' ∧
    sub'.Ok ∧ sub'.listed = (sub.listed && !as.any (ends sub.run (some i))) ∧
    (sub.full = true → sub'.full = true) ∧
    sub'.ch.carries.Sublist (sub.ch.carries ++ published sub.run as) ∧
    (sub'.full = false → sub'.ch.carries =
      sub.ch.carries ++ if sub.listed then heard sub.run (some i) as else []) := by
  refine ⟨_, rfl, ?_⟩
  induction as generalizing sub with
  | nil => exact ⟨h, by simp, id, by simp, by simp⟩
  | cons a as ih =>
    obtain ⟨hok₁, hfull₁, hsub₁, hexact₁⟩ := h.step (i := i) a
    obtain ⟨hok, hlisted, hfull, hsub, hexact⟩ := ih hok₁
    rw [react_run] at hlisted hsub hexact
    rw [react_listed] at hlisted hexact
    refine ⟨hok, ?_, hfull ∘ hfull₁, ?_, fun hnot => ?_⟩
    · simpa [Bool.and_assoc] using hlisted
    · rw [published_cons, ← List.append_assoc]
      exact hsub.trans (hsub₁.append_right _)
    · have hbefore : (sub.react i a).full = false :=
        Bool.eq_false_iff.mpr fun hyes => by simp [hfull hyes] at hnot
      rw [List.foldl_cons, hexact hnot, hexact₁ hbefore, heard_cons]
      cases sub.listed <;> cases ends sub.run (some i) a <;> simp

end Subscriber

theorem trim_eq (n : Nat) (l : List ε) : Broker.trim n l = l.rtake n := by
  unfold Broker.trim List.rtake
  split_ifs with hlong
  · rfl
  · rw [Nat.sub_eq_zero_of_le (not_lt.mp hlong), List.drop_zero]

theorem rtake_append_rtake (n : Nat) (l m : List ε) :
    (l.rtake n ++ m).rtake n = (l ++ m).rtake n := by
  simp only [List.rtake, List.drop_append, List.drop_drop, List.length_append, List.length_drop]
  congr 2 <;> omega

def RunState.react (n : Nat) (run : String) (known : Bool) (st : RunState ε) (a : Action ε) :
    RunState ε where
  events := if st.closed then st.events else (st.events ++ published run [a]).rtake n
  closed := st.closed || known && ends run none a

namespace Broker

/-- A listed channel is of a run that is known and not finished. -/
def Live (b : Broker ε) (sub : Subscriber ε) : Prop :=
  sub.listed = true → sub.run ≠ "" ∧ (b.runs sub.run).isSome ∧
    (b.stateLocked sub.run).closed = false

structure Ok (b : Broker ε) : Prop where
  short : ∀ run, run ≠ "" → (b.stateLocked run).events.length ≤ b.bufferSize
  live : ∀ (i : Nat) (sub : Subscriber ε), b.subs[i]? = some sub → b.Live sub

structure Stepped (b : Broker ε) (a : Action ε) (b' : Broker ε) : Prop where
  size : b'.bufferSize = b.bufferSize
  known : ∀ run, (b.runs run).isSome → (b'.runs run).isSome
  state : ∀ run, run ≠ "" → b'.stateLocked run =
    (b.stateLocked run).react b.bufferSize run (b.runs run).isSome a
  subs : ∀ (i : Nat) (sub : Subscriber ε), b.subs[i]? = some sub →
    b'.subs[i]? = some (sub.react i a)
  new : b'.subs.length = b.subs.length ∨ ∃ sub, b'.subs = b.subs ++ [sub] ∧ b'.Live sub

variable {b b' : Broker ε} {a : Action ε}

theorem Ok.stepped (h : b.Ok) (hstep : Stepped b a b') : b'.Ok := by
  obtain ⟨hsize, hknown, hstate, hsubs, hnew⟩ := hstep
  constructor
  · intro run hrun
    rw [hstate run hrun, hsize, RunState.react]
    split_ifs
    · exact h.short run hrun
    · simp only [List.rtake, List.length_drop]
      omega
  · intro i sub hsub hlisted
    rcases Nat.lt_or_ge i b.subs.length with hi | hi
    · obtain rfl := Option.some.inj ((hsubs i _ (List.getElem?_eq_getElem hi)).symm.trans hsub)
      rw [Subscriber.react_listed, Bool.and_eq_true, Bool.not_eq_true'] at hlisted
      rw [Subscriber.react_run]
      obtain ⟨hrun, hsome, hopen⟩ := h.live i _ (List.getElem?_eq_getElem hi) hlisted.1
      refine ⟨hrun, hknown _ hsome, ?_⟩
      rw [hstate _ hrun, RunState.react, hopen]
      grind [ends_of_none]
    · obtain hsame | ⟨fresh, hfresh, hlive⟩ := hnew
      · simp [List.getElem?_eq_none (hsame ▸ hi)] at hsub
      · rw [hfresh, List.getElem?_append_right hi] at hsub
        obtain rfl : sub = fresh := by simpa using List.mem_of_getElem? hsub
        exact hlive hlisted

theorem Ok.rtake (h : b.Ok) {run : String} (hrun : run ≠ "") :
    (b.stateLocked run).events.rtake b.bufferSize = (b.stateLocked run).events := by
  simp [List.rtake, Nat.sub_eq_zero_of_le (h.short run hrun)]

theorem Ok.state_idle (h : b.Ok) {run : String} (hrun : run ≠ "")
    (hquiet : (b.stateLocked run).closed = false → published run [a] = [] ∧
      ((b.runs run).isSome → ends run none a = false)) :
    b.stateLocked run = (b.stateLocked run).react b.bufferSize run (b.runs run).isSome a := by
  have hrtake := h.rtake hrun
  ext1 <;> grind [RunState.react]

theorem Ok.idle (h : b.Ok)
    (hquiet : ∀ run, run ≠ "" → (b.stateLocked run).closed = false → published run [a] = [] ∧
      ((b.runs run).isSome → ends run none a = false))
    (hreact : ∀ (i : Nat) (sub : Subscriber ε), b.Live sub → sub.react i a = sub) : Stepped b a b :=
  ⟨rfl, fun _ => id, fun r hr => h.state_idle hr (hquiet r hr),
    fun i sub hsub => (hreact i sub (h.live i sub hsub)).symm ▸ hsub, .inl rfl⟩

theorem Ok.set (h : b.Ok) {run : String} {st : RunState ε} {subs : List (Subscriber ε)}
    (hother : ∀ r, r ≠ run → published r [a] = [] ∧ ends r none a = false)
    (hst : run ≠ "" ∧ st = (b.stateLocked run).react b.bufferSize run (b.runs run).isSome a)
    (hsubs : ∀ (i : Nat) (sub : Subscriber ε), b.subs[i]? = some sub →
      subs[i]? = some (sub.react i a))
    (hnew : subs.length = b.subs.length ∨ ∃ sub, subs = b.subs ++ [sub] ∧
      Live { b with runs := b.runs.set run st, subs := subs } sub) :
    Stepped b a { b with runs := b.runs.set run st, subs := subs } := by
  refine ⟨rfl, fun r hr => by grind [GoMap.set_apply], fun r hr => ?_, hsubs, hnew⟩
  by_cases hrun : r = run
  · grind [stateLocked, GoMap.set_apply]
  · have := h.state_idle hr (fun _ => ⟨(hother r hrun).1, fun _ => (hother r hrun).2⟩)
    grind [stateLocked, GoMap.set_apply]

theorem Ok.publish (h : b.Ok) (run : String) (ev : ε) :
    Stepped b (.publish run ev) (b.publish run ev) := by
  by_cases hon : run ≠ "" ∧ (b.stateLocked run).closed = false
  · simp only [Broker.publish, hon]
    refine h.set (by grind [published, ends]) ⟨hon.1, ?_⟩ (fun i sub hsub => ?_) (.inl (by simp))
    · simp [RunState.react, hon, trim_eq, published, ends]
    · simp [hsub, Subscriber.react]
  · have hsame : b.publish run ev = b := by
      grind [Broker.publish]
    rw [hsame]
    exact h.idle (by grind [published, ends]) (by grind [Subscriber.react, Live])

theorem Ok.finish (h : b.Ok) (run : String) : Stepped b (.finish run) (b.finish run) := by
  by_cases hon : run ≠ "" ∧ (b.runs run).isSome ∧ (b.stateLocked run).closed = false
  · obtain ⟨hempty, hsome, hopen⟩ := hon
    obtain ⟨st, hst⟩ := Option.isSome_iff_exists.mp hsome
    have hlocked : b.stateLocked run = st := by simp [stateLocked, hst]
    simp only [Broker.finish, hempty, hst, ← hlocked, hopen]
    refine h.set (by grind [published, ends]) ⟨hempty, ?_⟩ (fun i sub hsub => ?_) (.inl (by simp))
    · simp [RunState.react, hopen, hsome, published, ends, h.rtake hempty]
    · simp [hsub, Subscriber.react]
  · have hsame : b.finish run = b := by
      grind [Broker.finish, stateLocked]
    rw [hsame]
    exact h.idle (by grind [published, ends]) (by grind [Subscriber.react, Live])

theorem Ok.subscribe (h : b.Ok) (run : String) :
    ∃ sub b', b.subscribe run = some b' ∧ Stepped b (.subscribe run) b' ∧
      b'.subs[b.subs.length]? = some sub ∧ sub.Ok ∧ sub.run = run ∧ sub.full = false ∧
      sub.listed = (run ≠ "" && !(b.stateLocked run).closed) ∧
      sub.ch.carries = if run = "" then [] else (b.stateLocked run).events := by
  by_cases hempty : run = ""
  · let sub : Subscriber ε :=
      { run := run, ch := Chan.close { cap := b.bufferSize }, listed := false }
    refine ⟨sub, { b with subs := b.subs ++ [sub] }, by simp [Broker.subscribe, hempty, sub], ⟨rfl,
      fun _ => id, fun r hr => h.state_idle hr fun _ => ⟨rfl, fun _ => rfl⟩, ?_,
      .inr ⟨sub, rfl, nofun⟩⟩, by simp, ⟨rfl, rfl⟩, rfl, rfl, by simp [sub, hempty],
      by simp [sub, hempty, Chan.close, Chan.carries]⟩
    grind [Subscriber.react]
  · let st := b.stateLocked run
    have hsend := @Chan.sendAll_open _ { cap := b.bufferSize } st.events rfl
      (by simpa using h.short run hempty)
    let sub : Subscriber ε :=
      { run := run
        ch := { cap := b.bufferSize, buf := st.events, closes := if st.closed then 1 else 0 }
        listed := !st.closed }
    refine ⟨sub, { b with runs := b.runs.set run st, subs := b.subs ++ [sub] }, ?_,
      h.set (fun _ _ => ⟨rfl, rfl⟩) ⟨hempty, h.state_idle hempty fun _ => ⟨rfl, fun _ => rfl⟩⟩ ?_
        (.inr ⟨sub, rfl, ?_⟩), by simp, ?_, rfl, rfl, by simp [sub, hempty, st],
      by simp [sub, hempty, Chan.carries, st]⟩
    · cases hclosed : (b.stateLocked run).closed <;>
        simp [Broker.subscribe, hempty, hsend, sub, hclosed, Chan.close, st]
    · grind [Subscriber.react]
    · grind [Live, stateLocked, GoMap.set_apply]
    · cases hclosed : (b.stateLocked run).closed <;> simp [Subscriber.Ok, sub, hclosed, st]

theorem Ok.step (h : b.Ok) (a : Action ε) : ∃ b', b.step a = some b' ∧ Stepped b a b' := by
  cases a with
  | publish run ev => exact ⟨_, rfl, h.publish run ev⟩
  | subscribe run =>
    obtain ⟨-, b', hstep, hstepped, -⟩ := h.subscribe run
    exact ⟨b', hstep, hstepped⟩
  | finish run => exact ⟨_, rfl, h.finish run⟩
  | cancel | receive =>
    refine ⟨_, rfl, rfl, fun _ => id, fun run hrun => ?_, fun i sub hsub => ?_, .inl ?_⟩
    · exact h.state_idle hrun fun _ => ⟨rfl, fun _ => rfl⟩
    · have := h.live i sub hsub
      grind [unsubscribe, Subscriber.react, Live]
    · exact List.length_modify ..

theorem Ok.run (h : b.Ok) (as : List (Action ε)) :
    ∃ b', runTrace Broker.step b as = some b' ∧ b'.Ok ∧
    b'.bufferSize = b.bufferSize ∧
    (∀ (i : Nat) (sub : Subscriber ε), b.subs[i]? = some sub →
      b'.subs[i]? = some (as.foldl (Subscriber.react i) sub)) ∧
    ∀ run, run ≠ "" → (b'.stateLocked run).events.Sublist
        ((b.stateLocked run).events ++ published run as) ∧
      (StepsMeet Broker.step (KnownRun run) b as →
        (b'.stateLocked run).closed = ((b.stateLocked run).closed || as.any (ends run none)) ∧
        (b'.stateLocked run).events = if (b.stateLocked run).closed then (b.stateLocked run).events
          else ((b.stateLocked run).events ++ heard run none as).rtake b.bufferSize) := by
  induction as generalizing b with
  | nil =>
    refine ⟨b, rfl, h, rfl, fun _ _ hsub => hsub, fun run hrun => ⟨by simp, fun _ => ⟨by simp, ?_⟩⟩⟩
    simp [h.rtake hrun]
  | cons a as ih =>
    obtain ⟨b₁, hstep, hone⟩ := h.step a
    obtain ⟨b', hrun, hok, hsize, hsubs, hstate⟩ := ih (h.stepped hone)
    refine ⟨b', by simp [runTrace, hstep, hrun], hok, hsize.trans hone.size,
      fun i sub hsub => hsubs i _ (hone.subs i sub hsub), fun run hempty => ?_⟩
    obtain ⟨hsub, hmet⟩ := hstate run hempty
    rw [hone.state run hempty] at hsub hmet
    rw [hone.size] at hmet
    constructor
    · rw [published_cons, ← List.append_assoc]
      refine hsub.trans (.append_right ?_ _)
      simp only [RunState.react]
      split_ifs
      · exact List.sublist_append_left _ _
      · exact List.drop_sublist _ _
    · rintro ⟨hknown, hrest⟩
      obtain ⟨hclosed, hevents⟩ := hmet (hrest _ hstep)
      have hends : ((b.runs run).isSome && ends run none a) = ends run none a := by
        cases a <;> grind [KnownRun, ends]
      rw [hclosed, hevents, heard_cons, ← List.append_assoc]
      simp only [RunState.react, hends]
      obtain ⟨events, closed⟩ := b.stateLocked run
      cases closed <;> cases hend : ends run none a <;> simp [hend, rtake_append_rtake]

theorem newBroker_ok (bufferSize : Int) : (newBroker bufferSize : Broker ε).Ok :=
  ⟨fun _ _ => Nat.zero_le _, nofun⟩

end Broker

/-- No send or close panics, and a subscriber hears a part of the run in order; if `Finish` of the
run was not early, it is closed with its run and misses nothing while there is room. -/
theorem subscriber_hears (bufferSize : Int) (pre post : List (Action ε)) (run : String) :
    ∃ b b' sub, runTrace Broker.step (newBroker bufferSize) pre = some b ∧
      runTrace Broker.step b (.subscribe run :: post) = some b' ∧
      b'.subs[b.subs.length]? = some sub ∧ sub.ch.panicked = false ∧ sub.ch.closes ≤ 1 ∧
      sub.ch.carries.Sublist (published run (pre ++ post)) ∧
      (StepsMeet Broker.step (KnownRun run) (newBroker bufferSize) pre →
        ((pre ++ post).any (ends run none) → sub.ch.closes = 1) ∧
        (run ≠ "" → sub.full = false → sub.ch.carries =
          (heard run none pre).rtake b.bufferSize ++
            if pre.any (ends run none) then [] else heard run (some b.subs.length) post)) := by
  obtain ⟨b, hpre, hok, hsize, -, hstate⟩ := (Broker.newBroker_ok bufferSize).run pre
  obtain ⟨sub, b₁, hsubscribe, hstepped, hsub, hsubok, rfl, hroom, hlisted, hcarries⟩ :=
    hok.subscribe run
  obtain ⟨b', hpost, -, -, hsubs, -⟩ := (hok.stepped hstepped).run post
  obtain ⟨sub', hfold, hok', hlisted', -, hsublist, hexact⟩ :=
    hsubok.foldl (i := b.subs.length) post
  refine ⟨b, b', sub', hpre, by simpa [runTrace, Broker.step, hsubscribe] using hpost,
    hfold ▸ hsubs _ _ hsub, hok'.1, ?_, ?_, fun hmet => ⟨fun hfinished => ?_, fun hrun hfull => ?_⟩⟩
  · rw [hok'.2]
    split_ifs <;> simp
  · rw [published, List.filterMap_append]
    refine hsublist.trans (.append_right ?_ _)
    rw [hcarries]
    split_ifs with hempty
    · exact List.nil_sublist _
    · exact (hstate _ hempty).1
  · have hgone : sub'.listed = false := by
      rw [hlisted', hlisted]
      by_cases hempty : sub.run = ""
      · simp [hempty]
      · rw [((hstate _ hempty).2 hmet).1]
        rw [List.any_append, Bool.or_eq_true] at hfinished
        obtain hbefore | hafter := hfinished
        · simp [hbefore]
        · obtain ⟨a, ha, hends⟩ := List.any_eq_true.mp hafter
          simp [List.any_eq_true.mpr ⟨a, ha, ends_of_none hends⟩]
    simp [hok'.2, hgone]
  · obtain ⟨hclosed, hevents⟩ := (hstate _ hrun).2 hmet
    rw [hexact hfull, hcarries, if_neg hrun, hevents, hlisted, hclosed, hsize]
    cases pre.any (ends sub.run none) <;> simp [hrun, newBroker, Broker.stateLocked, GoMap.empty]

/-- The early `Finish` of another run does not matter. -/
theorem subscriber_hears_to_end : ∃ b b' sub,
    runTrace Broker.step (newBroker 64 : Broker Nat) [.publish "r" 1, .finish "q"] = some b ∧
      runTrace Broker.step b [.subscribe "r", .publish "r" 2, .finish "r"] = some b' ∧
      b'.subs[0]? = some sub ∧ sub.ch.closes = 1 ∧ sub.ch.carries = [1, 2] := by
  obtain ⟨b, b', sub, hpre, hpost, hsub, -, -, -, hmet⟩ :=
    subscriber_hears 64 [.publish "r" 1, .finish "q"] [.publish "r" 2, .finish "r"] "r"
  obtain ⟨hclosed, hexact⟩ :=
    hmet ⟨trivial, fun _ _ => ⟨fun h => absurd h (by decide), fun _ _ => trivial⟩⟩
  refine ⟨b, b', sub, hpre, hpost, ?_, hclosed rfl, ?_⟩
  all_goals
    cases hpre
    cases hpost
    cases hsub
  · rfl
  · exact hexact (by decide) rfl

/-- `Finish` of a run nobody has asked for is lost, and a later subscriber waits for ever. -/
theorem finish_before_subscribe_lost :
    (runTrace Broker.step (newBroker 64 : Broker Nat) [.finish "r", .subscribe "r"]).map
      (fun b => b.subs.map fun sub => sub.ch.closes) = some [0] := by
  decide

end Parsar.Runstream
