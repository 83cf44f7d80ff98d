import Parsar.History.Gate

namespace Parsar.History

open GoStd

variable {ρ : Type*}

namespace Phase

def lock : Phase ρ → Option Nat
  | queued l | entered l | attempting l _ | calling l _ | sleeping l _ _ | fetched l _ |
    leaving l _ => some l
  | start | missed | returned _ => none

def held : Phase ρ → Option Nat
  | entered l | attempting l _ | calling l _ | sleeping l _ _ | fetched l _ | leaving l _ => some l
  | start | missed | queued _ | returned _ => none

def Made (maxRetries : Int) (calls : Nat) : Phase ρ → Prop
  | start | missed | queued _ | entered _ => calls = 0
  | attempting _ n => calls = n ∧ n ≤ maxRetries
  | calling _ n => calls = n + 1 ∧ n ≤ maxRetries
  | sleeping _ n _ => calls = n + 1 ∧ n < maxRetries
  | fetched .. | leaving .. | returned _ => calls ≤ maxRetries + 1

theorem Made.le {maxRetries : Int} {calls : Nat} {phase : Phase ρ} (hmax : 0 ≤ maxRetries)
    (h : phase.Made maxRetries calls) : calls ≤ maxRetries + 1 := by
  cases phase <;> simp only [Made] at h <;> omega

end Phase

structure CallOk (g : Gate ρ) (i : Nat) (c : Call ρ) : Prop where
  lock : ∀ l, c.phase.lock = some l → g.chLock c.chatKey = some l
  held : ∀ l : Nat, c.phase.held = some l → g.mutexes[l]? = some (some i)
  made : c.phase.Made g.opts.maxRetries c.calls

theorem CallOk.of_unlocked {g : Gate ρ} {i : Nat} {c : Call ρ} (hlock : c.phase.lock = none)
    (hheld : c.phase.held = none) (hmade : c.phase.Made g.opts.maxRetries c.calls) :
    CallOk g i c :=
  ⟨by simp [hlock], by simp [hheld], hmade⟩

structure Undisturbed (i : Nat) (g g' : Gate ρ) : Prop where
  opts : g'.opts = g.opts
  lock : ∀ key l, g.chLock key = some l → g'.chLock key = some l
  held : ∀ l j : Nat, j ≠ i → g.mutexes[l]? = some (some j) → g'.mutexes[l]? = some (some j)

theorem CallOk.undisturbed {g g' : Gate ρ} {i j : Nat} {c : Call ρ} (h : CallOk g j c)
    (hframe : Undisturbed i g g') (hj : j ≠ i) : CallOk g' j c where
  lock := fun l hl => hframe.lock _ l (h.lock l hl)
  held := fun l hl => hframe.held l j hj (h.held l hl)
  made := by
    rw [hframe.opts]
    exact h.made

section Step

variable {i : Nat} {g g' : Gate ρ} {c d : Call ρ} {a : CallAction ρ}

theorem Undisturbed.refl : Undisturbed i g g := ⟨rfl, fun _ _ h => h, fun _ _ _ h => h⟩

theorem Undisturbed.hold {l : Nat} {holder : Option Nat}
    (hl : ∀ j, j ≠ i → g.mutexes[l]? ≠ some (some j)) : Undisturbed i g (g.hold l holder) where
  opts := rfl
  lock := fun _ _ h => h
  held := by
    intro k j hj hk
    have hne : l ≠ k := by
      rintro rfl
      exact hl j hj hk
    rw [Gate.hold, List.getElem?_set_ne hne]
    exact hk

theorem effect_undisturbed (hc : CallOk g i c) (h : CallEffect i g c a g' d) :
    Undisturbed i g g' := by
  cases h with
  | hit | found | fetchHistory | sleep | fail | wake => exact .refl
  | miss | answer => exact ⟨rfl, fun _ _ h => h, fun _ _ _ h => h⟩
  | made hphase hnone =>
    refine ⟨rfl, fun key l hl => GoMap.set_of_none hnone hl, ?_⟩
    intro l j _ hl
    have hlt : l < g.mutexes.length := (List.getElem?_eq_some_iff.1 hl).1
    rw [List.getElem?_append_left hlt]
    exact hl
  | lock hphase hfree =>
    apply Undisturbed.hold
    intro j _ hl
    rw [hfree] at hl
    cases hl
  | put =>
    unfold Gate.cachePut
    split_ifs
    · exact .refl
    · exact ⟨rfl, fun _ _ h => h, fun _ _ _ h => h⟩
  | unlock hphase =>
    apply Undisturbed.hold
    intro j hj hl
    rw [hc.held _ (by rw [hphase]; rfl)] at hl
    cases hl
    exact hj rfl

theorem effect_callOk (hmax : 0 ≤ g.opts.maxRetries) (hc : CallOk g i c)
    (h : CallEffect i g c a g' d) : CallOk g' i d := by
  have hlock := hc.lock
  have hheld := hc.held
  have hmade := hc.made
  cases h with
  | hit _ _ hphase =>
    rcases hphase with ⟨hphase, rfl⟩ | ⟨l, hphase, rfl⟩
    · rw [hphase] at hmade
      exact .of_unlocked rfl rfl (by simp only [Phase.Made] at hmade ⊢; omega)
    · rw [hphase] at hlock hheld hmade
      exact ⟨hlock, hheld, by simp only [Phase.Made] at hmade ⊢; omega⟩
  | miss _ hphase =>
    rcases hphase with ⟨hphase, rfl⟩ | ⟨l, hphase, rfl⟩
    · rw [hphase] at hmade
      exact .of_unlocked rfl rfl hmade
    · rw [hphase] at hlock hheld hmade
      exact ⟨hlock, hheld, hmade, hmax⟩
  | found hphase hl =>
    rw [hphase] at hmade
    refine ⟨fun l hl' => ?_, fun l hl' => (by cases hl'), hmade⟩
    cases hl'
    exact hl
  | made hphase =>
    rw [hphase] at hmade
    refine ⟨fun l hl' => ?_, fun l hl' => (by cases hl'), hmade⟩
    cases hl'
    exact Function.update_self _ _ _
  | lock hphase hfree =>
    rw [hphase] at hlock hmade
    refine ⟨hlock, fun l hl' => ?_, hmade⟩
    cases hl'
    exact List.getElem?_set_self (List.getElem?_eq_some_iff.1 hfree).1
  | fetchHistory hphase hn =>
    rw [hphase] at hlock hheld hmade
    exact ⟨hlock, hheld, congrArg (· + 1) hmade.1, hn⟩
  | answer hphase | sleep hphase | wake hphase =>
    rw [hphase] at hlock hheld hmade
    exact ⟨hlock, hheld, by simp only [Phase.Made] at hmade ⊢; omega⟩
  | fail hphase =>
    rcases hphase with ⟨n, hphase⟩ | ⟨n, wait, hphase⟩
    all_goals
      rw [hphase] at hlock hheld hmade
      exact ⟨hlock, hheld, by simp only [Phase.Made] at hmade ⊢; omega⟩
  | put hphase =>
    rw [hphase] at hlock hheld hmade
    unfold Gate.cachePut
    split_ifs
    · exact ⟨hlock, hheld, hmade⟩
    · exact ⟨hlock, hheld, hmade⟩
  | unlock hphase =>
    rw [hphase] at hmade
    exact .of_unlocked rfl rfl hmade

end Step

theorem traffic_locks (opts : Options) : Pool.Keeps newCall Call.step (fun _ e => nomatch e)
    (fun _ (_ : TrafficAction ρ) => True) (fun g _ => g.opts = opts.withDefaults) CallOk where
  spawn := fun _ _ _ hp => ⟨hp.shared, nofun, nofun, rfl⟩
  run := by
    intro p i c a g' d _ hp hc hstep
    have hok := hp.threads i c hc
    have heffect := callStep_effect hstep
    have hframe := effect_undisturbed hok heffect
    have hmax : 0 ≤ p.shared.opts.maxRetries := by
      rw [hp.shared, Options.withDefaults]
      dsimp only
      split_ifs <;> omega
    exact ⟨hframe.opts.trans hp.shared, effect_callOk hmax hok heffect,
      fun j u hj hu => (hp.threads j u hu).undisturbed hframe hj⟩
  env := fun _ e => nomatch e

def Fetched (g : Gate ρ) (i : Nat) (c : Call ρ) (res : ρ) : Prop :=
  ∃ x ∈ g.answers, x.platform = c.platform ∧ x.req = c.req ∧ x.res = res ∧ x.call = i

/-- `FetchHistory` returned the page for the platform and request of the call, to it or to one that
cached it less than the TTL before. -/
def Served (g : Gate ρ) (i : Nat) (c : Call ρ) (res : ρ) : Prop :=
  ∃ x ∈ g.answers, x.platform = c.platform ∧ x.req = c.req ∧ x.res = res ∧
    (x.call = i ∨ ∃ put ∈ g.puts, put.call = x.call ∧
      ∃ now, c.hitAt = some now ∧ now.nanos < put.now.nanos + g.opts.cacheTTL)

/-- At a look into the cache, fresh pages under the key of the call answer its request. -/
def Apart (p : Traffic ρ) : TrafficAction ρ → Prop
  | .run i (.cacheGet now) => ∀ c ∈ p.threads[i]?, ∀ x ∈ p.shared.answers, ∀ put ∈ p.shared.puts,
    put.call = x.call → cacheKey x.platform x.req = c.cacheKey →
    now.nanos < put.now.nanos + p.shared.opts.cacheTTL → x.platform = c.platform ∧ x.req = c.req
  | .run _ _ | .spawn _ | .env _ => True

def CacheOk (g : Gate ρ) : Prop :=
  ∀ key e, g.cache key = some e → ∃ x ∈ g.answers, ∃ put ∈ g.puts, put.call = x.call ∧
    cacheKey x.platform x.req = key ∧ x.res = e.res ∧ e.expires = put.now.add g.opts.cacheTTL

structure PageOk (g : Gate ρ) (i : Nat) (c : Call ρ) : Prop where
  fetched : ∀ l res, c.phase = .fetched l res → Fetched g i c res
  leaving : ∀ l res, c.phase = .leaving l (.ok res) → Served g i c res
  returned : ∀ res, c.phase = .returned (.ok res) → Served g i c res

structure Grows (g g' : Gate ρ) : Prop where
  opts : g'.opts = g.opts
  answers : ∀ x ∈ g.answers, x ∈ g'.answers
  puts : ∀ x ∈ g.puts, x ∈ g'.puts

theorem Grows.refl (g : Gate ρ) : Grows g g := ⟨rfl, fun _ h => h, fun _ h => h⟩

section Pages

variable {i : Nat} {g g' : Gate ρ} {c d : Call ρ} {a : CallAction ρ} {res : ρ}

theorem Fetched.grows (h : Fetched g i c res) (hgrows : Grows g g') : Fetched g' i c res := by
  obtain ⟨x, hx, hfound⟩ := h
  exact ⟨x, hgrows.answers x hx, hfound⟩

theorem Served.grows (h : Served g i c res) (hgrows : Grows g g') : Served g' i c res := by
  obtain ⟨x, hx, hplatform, hreq, hres, hcall⟩ := h
  refine ⟨x, hgrows.answers x hx, hplatform, hreq, hres, hcall.imp id ?_⟩
  rintro ⟨put, hput, hsame, now, hnow, hlt⟩
  rw [← hgrows.opts] at hlt
  exact ⟨put, hgrows.puts put hput, hsame, now, hnow, hlt⟩

theorem PageOk.grows (h : PageOk g i c) (hgrows : Grows g g') : PageOk g' i c where
  fetched := fun l res hphase => (h.fetched l res hphase).grows hgrows
  leaving := fun l res hphase => (h.leaving l res hphase).grows hgrows
  returned := fun res hphase => (h.returned res hphase).grows hgrows

theorem CacheOk.grows (h : CacheOk g) (hgrows : Grows g g')
    (hcache : ∀ k e, g'.cache k = some e → g.cache k = some e) : CacheOk g' := by
  intro key e he
  obtain ⟨x, hx, put, hput, hfound⟩ := h key e (hcache key e he)
  rw [← hgrows.opts] at hfound
  exact ⟨x, hgrows.answers x hx, put, hgrows.puts put hput, hfound⟩

theorem effect_grows (h : CallEffect i g c a g' d) : Grows g g' := by
  cases h with
  | hit | found | fetchHistory | sleep | fail | wake => exact .refl g
  | miss | made | lock | unlock => exact ⟨rfl, fun _ h => h, fun _ h => h⟩
  | answer => exact ⟨rfl, fun _ h => List.mem_append_left _ h, fun _ h => h⟩
  | put =>
    unfold Gate.cachePut
    split_ifs
    · exact .refl g
    · exact ⟨rfl, fun _ h => h, fun _ h => List.mem_append_left _ h⟩

theorem effect_cacheOk (hcache : CacheOk g) (hc : PageOk g i c) (h : CallEffect i g c a g' d) :
    CacheOk g' := by
  have hgrows := effect_grows h
  cases h with
  | hit | found | fetchHistory | sleep | fail | wake => exact hcache
  | made | lock | unlock | answer => exact hcache.grows hgrows (fun _ _ h => h)
  | miss hsub => exact hcache.grows hgrows hsub
  | put hphase =>
    obtain ⟨x, hx, hplatform, hreq, hres, hcall⟩ := hc.fetched _ _ hphase
    unfold Gate.cachePut at hgrows ⊢
    split_ifs at hgrows ⊢
    · exact hcache
    · intro key e he
      rcases GoMap.set_eq_some he with ⟨rfl, rfl⟩ | ⟨-, he⟩
      · refine ⟨x, hx, _, List.mem_append_right _ List.mem_cons_self, hcall.symm, ?_, hres, rfl⟩
        rw [hplatform, hreq]
        rfl
      · obtain ⟨y, hy, put, hput, hfound⟩ := hcache key e he
        exact ⟨y, hy, put, List.mem_append_left _ hput, hfound⟩

theorem hit_served (hcache : CacheOk g) {now : Time} (hhits : g.Hits c.cacheKey now res)
    (hapart : ∀ x ∈ g.answers, ∀ put ∈ g.puts, put.call = x.call →
      cacheKey x.platform x.req = c.cacheKey → now.nanos < put.now.nanos + g.opts.cacheTTL →
      x.platform = c.platform ∧ x.req = c.req) (phase : Phase ρ) :
    Served g i { c with phase := phase, hitAt := some now } res := by
  obtain ⟨e, he, hres, hnow⟩ := hhits
  obtain ⟨x, hx, put, hput, hcall, hkey, hsame, hexpires⟩ := hcache _ e he
  rw [hexpires, Time.add] at hnow
  obtain ⟨hplatform, hreq⟩ := hapart x hx put hput hcall hkey hnow
  exact ⟨x, hx, hplatform, hreq, hsame.trans hres, .inr ⟨put, hput, hcall, now, rfl, hnow⟩⟩

theorem effect_pageOk (hcache : CacheOk g) (hc : PageOk g i c)
    (hapart : ∀ now, a = .cacheGet now → ∀ x ∈ g.answers, ∀ put ∈ g.puts, put.call = x.call →
      cacheKey x.platform x.req = c.cacheKey → now.nanos < put.now.nanos + g.opts.cacheTTL →
      x.platform = c.platform ∧ x.req = c.req)
    (h : CallEffect i g c a g' d) : PageOk g' i d := by
  have hgrows := effect_grows h
  cases h with
  | hit ha hhits hphase =>
    have hserved := fun phase => hit_served (i := i) hcache hhits (hapart _ ha) phase
    rcases hphase with ⟨-, rfl⟩ | ⟨l, -, rfl⟩
    · refine ⟨nofun, nofun, fun res' hres' => ?_⟩
      cases hres'
      exact hserved _
    · refine ⟨nofun, fun l' res' hres' => ?_, nofun⟩
      cases hres'
      exact hserved _
  | miss _ hphase =>
    rcases hphase with ⟨-, rfl⟩ | ⟨l, -, rfl⟩
    · exact ⟨nofun, nofun, nofun⟩
    · exact ⟨nofun, nofun, nofun⟩
  | found | made | lock | fetchHistory | sleep | wake | fail => exact ⟨nofun, nofun, nofun⟩
  | answer =>
    refine ⟨fun l' res' hres' => ?_, nofun, nofun⟩
    cases hres'
    exact ⟨_, List.mem_append_right _ List.mem_cons_self, rfl, rfl, rfl, rfl⟩
  | put hphase =>
    have hfetched := (hc.fetched _ _ hphase).grows hgrows
    refine ⟨nofun, fun l' res' hres' => ?_, nofun⟩
    cases hres'
    obtain ⟨x, hx, hplatform, hreq, hres, hcall⟩ := hfetched
    exact ⟨x, hx, hplatform, hreq, hres, .inl hcall⟩
  | unlock hphase =>
    refine ⟨nofun, nofun, fun res' hres' => ?_⟩
    cases hres'
    exact (hc.leaving _ _ hphase).grows hgrows

end Pages

theorem traffic_pages : Pool.Keeps newCall Call.step (fun _ e => nomatch e) (Apart (ρ := ρ))
    (fun g _ => CacheOk g) PageOk where
  spawn := fun _ _ _ hp => ⟨hp.shared, nofun, nofun, nofun⟩
  run := by
    intro p i c a g' d hapart hp hc hstep
    have hok := hp.threads i c hc
    have heffect := callStep_effect hstep
    refine ⟨effect_cacheOk hp.shared hok heffect, effect_pageOk hp.shared hok ?_ heffect,
      fun j u _ hu => (hp.threads j u hu).grows (effect_grows heffect)⟩
    rintro now rfl
    exact hapart c hc
  env := fun _ e => nomatch e

/-- One `FetchHistory` at a time for a chat, at most `MaxRetries + 1` for a call; and if cached
pages answer the requests that find them, every page was fetched for its request, less than the TTL
before. -/
theorem history_isolated (opts : Options) (actions : List (TrafficAction ρ)) (p : Traffic ρ)
    (hrun : runTrace Traffic.step (Traffic.new opts) actions = some p) :
    (∀ (i j : Nat) (c d : Call ρ) l n l' n', p.threads[i]? = some c → p.threads[j]? = some d →
      c.phase = .calling l n → d.phase = .calling l' n' → c.platform = d.platform →
      trimSpace c.req.externalChatID = trimSpace d.req.externalChatID → i = j) ∧
    (∀ (i : Nat) (c : Call ρ), p.threads[i]? = some c → c.calls ≤ opts.withDefaults.maxRetries + 1) ∧
    (StepsMeet Traffic.step Apart (Traffic.new opts) actions →
      ∀ (i : Nat) (c : Call ρ) res, p.threads[i]? = some c → c.phase = .returned (.ok res) →
        Served p.shared i c res) := by
  have hlocks := (traffic_locks opts).run_holds (stepsMeet_true _ _) hrun ⟨rfl, nofun⟩
  refine ⟨?_, ?_, ?_⟩
  · intro i j c d l n l' n' hi hj hc hd hplatform hchat
    have hci := hlocks.threads i c hi
    have hdj := hlocks.threads j d hj
    have hkey : c.chatKey = d.chatKey := by
      rw [Call.chatKey, Call.chatKey, chatKey, chatKey, hplatform, hchat]
    have hl := hci.lock l (by rw [hc]; rfl)
    have hl' := hdj.lock l' (by rw [hd]; rfl)
    rw [hkey, hl'] at hl
    cases hl
    have hheld := hci.held l (by rw [hc]; rfl)
    rw [hdj.held l (by rw [hd]; rfl)] at hheld
    cases hheld
    rfl
  · intro i c hi
    have hmade := (hlocks.threads i c hi).made
    rw [hlocks.shared] at hmade
    refine hmade.le ?_
    rw [Options.withDefaults]
    dsimp only
    split_ifs <;> omega
  · intro hapart i c res hi hreturned
    have hpages := traffic_pages.run_holds hapart hrun ⟨nofun, nofun⟩
    exact (hpages.threads i c hi).returned res hreturned

def Phase.page : Phase ρ → Option ρ
  | returned (.ok res) => some res
  | _ => none

theorem Phase.page_eq_some {phase : Phase ρ} {res : ρ} (h : phase.page = some res) :
    phase = .returned (.ok res) := by
  unfold Phase.page at h
  split at h
  · cases h
    rfl
  · cases h

instance : ∀ (p : Traffic ρ) (a : TrafficAction ρ), Decidable (Apart p a)
  | p, .run i (.cacheGet now) => inferInstanceAs (Decidable (∀ c ∈ p.threads[i]?,
      ∀ x ∈ p.shared.answers, ∀ put ∈ p.shared.puts, put.call = x.call →
      cacheKey x.platform x.req = c.cacheKey →
      now.nanos < put.now.nanos + p.shared.opts.cacheTTL →
      x.platform = c.platform ∧ x.req = c.req))
  | _, .run _ .lockFor | _, .run _ .lock | _, .run _ .fetchHistory | _, .run _ (.answer _)
  | _, .run _ (.wake _) | _, .run _ (.cachePut _) | _, .run _ .unlock | _, .spawn _
  | _, .env _ => .isTrue trivial

def slackRequest (sourceAppID : String) : String × FetchHistoryRequest :=
  ("slack", { externalChatID := "C1", sourceAppID, limit := 15 })

def firstFetch : List (TrafficAction String) :=
  [.spawn (slackRequest "A1"), .run 0 (.cacheGet ⟨0⟩), .run 0 .lockFor, .run 0 .lock,
    .run 0 (.cacheGet ⟨0⟩), .run 0 .fetchHistory, .run 0 (.answer (.error (.rateLimited 1))),
    .run 0 (.wake true), .run 0 .fetchHistory, .run 0 (.answer (.ok "page")),
    .run 0 (.cachePut ⟨1⟩), .run 0 .unlock]

theorem history_isolated_repeated : ∃ p c, runTrace Traffic.step (Traffic.new {})
      (firstFetch ++ [.spawn (slackRequest "A1"), .run 1 (.cacheGet ⟨2⟩)]) = some p ∧
    p.threads[1]? = some c ∧ c.phase = .returned (.ok "page") ∧ Served p.shared 1 c "page" := by
  have hrun : (runTrace Traffic.step (Traffic.new {})
      (firstFetch ++ [.spawn (slackRequest "A1"), .run 1 (.cacheGet ⟨2⟩)])).map (fun p =>
        p.threads[1]?.any (fun c => c.phase.page == some "page")) = some true := by
    decide +kernel
  obtain ⟨p, hp, hcheck⟩ := exists_of_runTrace_map hrun
  simp only [Option.any_eq_true, beq_iff_eq] at hcheck
  obtain ⟨c, hc, hpage⟩ := hcheck
  have hreturned := Phase.page_eq_some hpage
  obtain ⟨-, -, hserved⟩ := history_isolated {} _ p hp
  exact ⟨p, c, hp, hc, hreturned,
    hserved (stepsMeet_of_check (by decide +kernel)) 1 c "page" hc hreturned⟩

/-- A call of another bot is given the page that the first bot fetched. -/
theorem page_crosses_bots : ∃ p c, runTrace Traffic.step (Traffic.new {})
      (firstFetch ++ [.spawn (slackRequest "A2"), .run 1 (.cacheGet ⟨2⟩)]) = some p ∧
    p.threads[1]? = some c ∧ c.req.sourceAppID = "A2" ∧ c.phase = .returned (.ok "page") ∧
    ∀ x ∈ p.shared.answers, x.req.sourceAppID = "A1" := by
  have hrun : (runTrace Traffic.step (Traffic.new {})
      (firstFetch ++ [.spawn (slackRequest "A2"), .run 1 (.cacheGet ⟨2⟩)])).map (fun p =>
        p.threads[1]?.any (fun c => c.req.sourceAppID == "A2" && c.phase.page == some "page") &&
        p.shared.answers.all (fun x => x.req.sourceAppID == "A1")) = some true := by
    decide +kernel
  obtain ⟨p, hp, hcheck⟩ := exists_of_runTrace_map hrun
  simp only [Bool.and_eq_true, Option.any_eq_true, List.all_eq_true, beq_iff_eq] at hcheck
  obtain ⟨⟨c, hc, hbot, hpage⟩, hanswers⟩ := hcheck
  exact ⟨p, c, hp, hc, hbot, Phase.page_eq_some hpage, hanswers⟩

end Parsar.History
