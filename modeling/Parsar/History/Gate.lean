import Mathlib.Algebra.Group.Int.Defs
import Parsar.Framework.Pool
import Parsar.GoStd.Map
import Parsar.GoStd.Text
import Parsar.GoStd.Time

namespace Parsar.History

open GoStd

structure FetchHistoryRequest where
  externalChatID : String
  externalThreadID : String := ""
  sourceAppID : String := ""
  limit : Int
  cursor : String := ""
  deriving DecidableEq

structure Options where
  maxRetries : Int := 0
  maxBackoff : Int := 0
  cacheTTL : Int := 0
  deriving DecidableEq

def Options.withDefaults (o : Options) : Options where
  maxRetries := if o.maxRetries ≤ 0 then 4 else o.maxRetries
  maxBackoff := if o.maxBackoff ≤ 0 then 30 * 10 ^ 9 else o.maxBackoff
  cacheTTL := if o.cacheTTL = 0 then 3 * 10 ^ 9 else o.cacheTTL

def keySep : String := "\x1f"

def chatKey (platform : String) (req : FetchHistoryRequest) : String :=
  platform ++ keySep ++ trimSpace req.externalChatID

def cacheKey (platform : String) (req : FetchHistoryRequest) : String :=
  keySep.intercalate [platform, trimSpace req.externalChatID, trimSpace req.externalThreadID,
    toString req.limit, trimSpace req.cursor]

def capBackoff (d max : Int) : Int :=
  let d := if d ≤ 0 then 10 ^ 9 else d
  if d > max then max else d

inductive FetchError where
  | rateLimited (retryAfter : Int)
  | other
  /-- The context of the call has ended during a wait. -/
  | context
  deriving DecidableEq

structure CacheEntry (ρ : Type*) where
  res : ρ
  expires : Time

/-- A page that a call of `FetchHistory` has returned, as history. -/
structure Answer (ρ : Type*) where
  call : Nat
  platform : String
  req : FetchHistoryRequest
  res : ρ

/-- When the page of a call was put into the cache, as history. -/
structure Put where
  call : Nat
  now : Time

/-- The locks, each with the call that holds it, and the cache. -/
structure Gate (ρ : Type*) where
  opts : Options
  chLock : GoMap String Nat := GoMap.empty
  mutexes : List (Option Nat) := []
  cache : GoMap String (CacheEntry ρ) := GoMap.empty
  answers : List (Answer ρ) := []
  puts : List Put := []

namespace Gate

variable {ρ : Type*} (g : Gate ρ)

def lockFor (key : String) : Gate ρ × Nat :=
  match g.chLock key with
  | some l => (g, l)
  | none =>
    ({ g with
        chLock := g.chLock.set key g.mutexes.length
        mutexes := g.mutexes ++ [none] }, g.mutexes.length)

def cacheGet (key : String) (now : Time) : Gate ρ × Option ρ :=
  if g.opts.cacheTTL < 0 then (g, none)
  else
    match g.cache key with
    | none => (g, none)
    | some e =>
      if now.nanos < e.expires.nanos then (g, some e.res)
      else ({ g with cache := g.cache.erase key }, none)

def cachePut (key : String) (res : ρ) (i : Nat) (now : Time) : Gate ρ :=
  if g.opts.cacheTTL < 0 then g
  else
    { g with
      cache := g.cache.set key ⟨res, now.add g.opts.cacheTTL⟩
      puts := g.puts ++ [⟨i, now⟩] }

def hold (l : Nat) (holder : Option Nat) : Gate ρ := { g with mutexes := g.mutexes.set l holder }

end Gate

inductive Phase (ρ : Type*) where
  | start
  | missed
  | queued (lock : Nat)
  | entered (lock : Nat)
  | attempting (lock attempt : Nat)
  | calling (lock attempt : Nat)
  | sleeping (lock attempt : Nat) (wait : Int)
  | fetched (lock : Nat) (res : ρ)
  | leaving (lock : Nat) (result : Except FetchError ρ)
  | returned (result : Except FetchError ρ)

/-- A call of `Fetch`; how often it has called `FetchHistory` and the reading of the clock at which
it found its page in the cache are history. -/
structure Call (ρ : Type*) where
  platform : String
  req : FetchHistoryRequest
  phase : Phase ρ := .start
  calls : Nat := 0
  hitAt : Option Time := none

inductive CallAction (ρ : Type*) where
  | cacheGet (now : Time)
  | lockFor
  | lock
  | fetchHistory
  | answer (result : Except FetchError ρ)
  | wake (inTime : Bool)
  | cachePut (now : Time)
  | unlock

namespace Call

variable {ρ : Type*} (c : Call ρ)

def chatKey : String := History.chatKey c.platform c.req

def cacheKey : String := History.cacheKey c.platform c.req

def answered (opts : Options) (lock attempt : Nat) : Except FetchError ρ → Phase ρ
  | .ok res => .fetched lock res
  | .error (.rateLimited retryAfter) =>
    if attempt = opts.maxRetries then .leaving lock (.error (.rateLimited retryAfter))
    else .sleeping lock attempt (capBackoff retryAfter opts.maxBackoff)
  | .error e => .leaving lock (.error e)

def record (i : Nat) (answers : List (Answer ρ)) : Except FetchError ρ → List (Answer ρ)
  | .ok res => answers ++ [⟨i, c.platform, c.req, res⟩]
  | .error _ => answers

def step (i : Nat) (g : Gate ρ) (c : Call ρ) : CallAction ρ → Option (Gate ρ × Call ρ)
  | .cacheGet now =>
    match c.phase with
    | .start =>
      match g.cacheGet c.cacheKey now with
      | (g', some res) => some (g', { c with phase := .returned (.ok res), hitAt := some now })
      | (g', none) => some (g', { c with phase := .missed })
    | .entered l =>
      match g.cacheGet c.cacheKey now with
      | (g', some res) => some (g', { c with phase := .leaving l (.ok res), hitAt := some now })
      | (g', none) => some (g', { c with phase := .attempting l 0 })
    | _ => none
  | .lockFor =>
    match c.phase with
    | .missed =>
      let (g', l) := g.lockFor c.chatKey
      some (g', { c with phase := .queued l })
    | _ => none
  | .lock =>
    match c.phase with
    | .queued l =>
      if g.mutexes[l]? = some none then some (g.hold l (some i), { c with phase := .entered l })
      else none
    | _ => none
  | .fetchHistory =>
    match c.phase with
    | .attempting l n =>
      if n ≤ g.opts.maxRetries then some (g, { c with phase := .calling l n, calls := c.calls + 1 })
      else none
    | _ => none
  | .answer result =>
    match c.phase with
    | .calling l n =>
      some ({ g with answers := c.record i g.answers result },
        { c with phase := answered g.opts l n result })
    | _ => none
  | .wake inTime =>
    match c.phase with
    | .sleeping l n _ =>
      let phase := if inTime then .attempting l (n + 1) else .leaving l (.error .context)
      some (g, { c with phase })
    | _ => none
  | .cachePut now =>
    match c.phase with
    | .fetched l res =>
      some (g.cachePut c.cacheKey res i now, { c with phase := .leaving l (.ok res) })
    | _ => none
  | .unlock =>
    match c.phase with
    | .leaving l result => some (g.hold l none, { c with phase := .returned result })
    | _ => none

end Call

abbrev Traffic (ρ : Type*) := Pool (Gate ρ) (Call ρ)

abbrev TrafficAction (ρ : Type*) := Pool.Action (String × FetchHistoryRequest) (CallAction ρ) Empty

def newCall {ρ : Type*} (x : String × FetchHistoryRequest) : Call ρ := { platform := x.1, req := x.2 }

def Traffic.step {ρ : Type*} : Traffic ρ → TrafficAction ρ → Option (Traffic ρ) :=
  Pool.step newCall Call.step (fun _ e => nomatch e)

def Traffic.new {ρ : Type*} (opts : Options) : Traffic ρ := ⟨{ opts := opts.withDefaults }, []⟩

def Gate.Hits {ρ : Type*} (g : Gate ρ) (key : String) (now : Time) (res : ρ) : Prop :=
  ∃ e, g.cache key = some e ∧ e.res = res ∧ now.nanos < e.expires.nanos

section Effect

variable {ρ : Type*} {i : Nat} {g g' : Gate ρ} {c d : Call ρ}

theorem cacheGet_some {key : String} {now : Time} {res : ρ}
    (h : g.cacheGet key now = (g', some res)) : g' = g ∧ g.Hits key now res := by
  unfold Gate.cacheGet at h
  split_ifs at h
  · cases h
  · split at h
    · cases h
    next e he =>
      split_ifs at h with hnow
      · cases h
        exact ⟨rfl, e, he, rfl, hnow⟩
      · cases h

theorem cacheGet_none {key : String} {now : Time} (h : g.cacheGet key now = (g', none)) :
    ∃ cache, g' = { g with cache := cache } ∧ ∀ k e, cache k = some e → g.cache k = some e := by
  unfold Gate.cacheGet at h
  split_ifs at h
  · cases h
    exact ⟨g.cache, rfl, fun _ _ he => he⟩
  · split at h
    · cases h
      exact ⟨g.cache, rfl, fun _ _ he => he⟩
    · split_ifs at h
      · cases h
      · cases h
        exact ⟨g.cache.erase key, rfl, fun _ _ he => (GoMap.erase_eq_some he).2⟩

inductive CallEffect (i : Nat) (g : Gate ρ) (c : Call ρ) (a : CallAction ρ) :
    Gate ρ → Call ρ → Prop where
  | hit {now : Time} {res : ρ} {phase : Phase ρ} : a = .cacheGet now → g.Hits c.cacheKey now res →
    (c.phase = .start ∧ phase = .returned (.ok res)) ∨
      (∃ l, c.phase = .entered l ∧ phase = .leaving l (.ok res)) →
    CallEffect i g c a g { c with phase := phase, hitAt := some now }
  | miss {cache : GoMap String (CacheEntry ρ)} {phase : Phase ρ} :
    (∀ k e, cache k = some e → g.cache k = some e) →
    (c.phase = .start ∧ phase = .missed) ∨
      (∃ l, c.phase = .entered l ∧ phase = .attempting l 0) →
    CallEffect i g c a { g with cache := cache } { c with phase := phase }
  | found {l : Nat} : c.phase = .missed → g.chLock c.chatKey = some l →
    CallEffect i g c a g { c with phase := .queued l }
  | made : c.phase = .missed → g.chLock c.chatKey = none →
    CallEffect i g c a
      { g with
        chLock := g.chLock.set c.chatKey g.mutexes.length
        mutexes := g.mutexes ++ [none] } { c with phase := .queued g.mutexes.length }
  | lock {l : Nat} : c.phase = .queued l → g.mutexes[l]? = some none →
    CallEffect i g c a (g.hold l (some i)) { c with phase := .entered l }
  | fetchHistory {l n : Nat} : c.phase = .attempting l n → n ≤ g.opts.maxRetries →
    CallEffect i g c a g { c with phase := .calling l n, calls := c.calls + 1 }
  | answer {l n : Nat} {res : ρ} : c.phase = .calling l n →
    CallEffect i g c a { g with answers := g.answers ++ [⟨i, c.platform, c.req, res⟩] }
      { c with phase := .fetched l res }
  | sleep {l n : Nat} {wait : Int} : c.phase = .calling l n → n ≠ g.opts.maxRetries →
    CallEffect i g c a g { c with phase := .sleeping l n wait }
  | fail {l : Nat} {e : FetchError} :
    (∃ n, c.phase = .calling l n) ∨ (∃ n wait, c.phase = .sleeping l n wait) →
    CallEffect i g c a g { c with phase := .leaving l (.error e) }
  | wake {l n : Nat} {wait : Int} : c.phase = .sleeping l n wait →
    CallEffect i g c a g { c with phase := .attempting l (n + 1) }
  | put {l : Nat} {res : ρ} {now : Time} : c.phase = .fetched l res →
    CallEffect i g c a (g.cachePut c.cacheKey res i now) { c with phase := .leaving l (.ok res) }
  | unlock {l : Nat} {result : Except FetchError ρ} : c.phase = .leaving l result →
    CallEffect i g c a (g.hold l none) { c with phase := .returned result }

theorem answer_effect {a : CallAction ρ} {l n : Nat} (hphase : c.phase = .calling l n)
    (result : Except FetchError ρ) :
    CallEffect i g c a { g with answers := c.record i g.answers result }
      { c with phase := Call.answered g.opts l n result } := by
  cases result with
  | ok res => exact .answer hphase
  | error e =>
    cases e with
    | rateLimited retryAfter =>
      simp only [Call.answered, Call.record]
      split_ifs with hlast
      · exact .fail (.inl ⟨n, hphase⟩)
      · exact .sleep hphase hlast
    | other | context => exact .fail (.inl ⟨n, hphase⟩)

theorem callStep_effect {a : CallAction ρ} (h : Call.step i g c a = some (g', d)) :
    CallEffect i g c a g' d := by
  cases a with
  | cacheGet now =>
    simp only [Call.step] at h
    split at h
    next hphase =>
      split at h
      next hget =>
        cases h
        obtain ⟨rfl, hhits⟩ := cacheGet_some hget
        exact .hit rfl hhits (.inl ⟨hphase, rfl⟩)
      next hget =>
        cases h
        obtain ⟨cache, rfl, hcache⟩ := cacheGet_none hget
        exact .miss hcache (.inl ⟨hphase, rfl⟩)
    next l hphase =>
      split at h
      next hget =>
        cases h
        obtain ⟨rfl, hhits⟩ := cacheGet_some hget
        exact .hit rfl hhits (.inr ⟨l, hphase, rfl⟩)
      next hget =>
        cases h
        obtain ⟨cache, rfl, hcache⟩ := cacheGet_none hget
        exact .miss hcache (.inr ⟨l, hphase, rfl⟩)
    · cases h
  | lockFor =>
    simp only [Call.step] at h
    split at h
    next hphase =>
      cases h
      unfold Gate.lockFor
      split
      next l hl => exact .found hphase hl
      next hnone => exact .made hphase hnone
    · cases h
  | lock =>
    simp only [Call.step] at h
    split at h
    next l hphase =>
      split_ifs at h with hfree
      cases h
      exact .lock hphase hfree
    · cases h
  | fetchHistory =>
    simp only [Call.step] at h
    split at h
    next l n hphase =>
      split_ifs at h with hn
      cases h
      exact .fetchHistory hphase hn
    · cases h
  | answer result =>
    simp only [Call.step] at h
    split at h
    next l n hphase =>
      cases h
      exact answer_effect hphase result
    · cases h
  | wake inTime =>
    simp only [Call.step] at h
    split at h
    next l n wait hphase =>
      cases h
      cases inTime with
      | true => exact .wake hphase
      | false => exact .fail (.inr ⟨n, wait, hphase⟩)
    · cases h
  | cachePut now =>
    simp only [Call.step] at h
    split at h
    next l res hphase =>
      cases h
      exact .put hphase
    · cases h
  | unlock =>
    simp only [Call.step] at h
    split at h
    next l result hphase =>
      cases h
      exact .unlock hphase
    · cases h

end Effect

end Parsar.History
