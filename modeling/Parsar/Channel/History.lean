import Parsar.Framework.Trace
import Parsar.GoStd.Text

namespace Parsar.Channel

open GoStd

inductive MessageType where
  | channelNameChange
  | channelIconChange
  | channelPinnedMessage
  | guildMemberJoin
  | call
  | threadCreated
  | threadStarterMessage
  | other
  deriving DecidableEq

structure Author where
  id : String
  username : String
  bot : Bool
  deriving DecidableEq

structure Message where
  id : String
  author : Option Author := none
  content : String := ""
  timestamp : Int := 0
  type : MessageType := .other
  deriving DecidableEq

structure HistoryMessage where
  externalMessageID : String
  senderID : String
  senderName : String
  text : String
  createdAt : Int
  fromBot : Bool
  deriving DecidableEq

def discordMessageToHistory (m : Message) : HistoryMessage where
  externalMessageID := m.id
  senderID := (m.author.map Author.id).getD ""
  senderName := (m.author.map Author.username).getD ""
  text := m.content
  createdAt := m.timestamp
  fromBot := (m.author.map Author.bot).getD false

def isDiscordHiddenMessage (m : Message) : Bool := m.type != .other

inductive ListError where
  /-- A `RateLimitError`, with what its `RateLimit` asks for unless that is nil. -/
  | rateLimit (retryAfter : Option Int)
  | other (text : String)
  deriving DecidableEq

inductive HistoryError where
  | channelRequired
  | rateLimited (retryAfter : Int)
  | listing (err : ListError)
  deriving DecidableEq

structure FetchHistoryRequest where
  externalChatID : String
  externalThreadID : String := ""
  cursor : String := ""
  limit : Int := 0

structure FetchHistoryResult where
  messages : List HistoryMessage
  nextCursor : String
  cap : Int

def discordHistoryCap : Int := 100

/-- A thread is a channel of its own. -/
def FetchHistoryRequest.target (req : FetchHistoryRequest) : String :=
  let threadScope := trimSpace req.externalThreadID
  if threadScope ≠ "" then threadScope else trimSpace req.externalChatID

/-- The order of Go strings, by their runes. -/
def less (a b : String) : Bool := a.toList.lex b.toList (fun c d => Nat.blt c.toNat d.toNat)

/-- The loop's `oldestID`. -/
def older (oldestID : String) (m : Message) : String :=
  if oldestID = "" ∨ (m.id ≠ "" ∧ less m.id oldestID) then m.id else oldestID

def addMessage (page : List HistoryMessage × String) :
    Option Message → List HistoryMessage × String
  | none => page
  | some m =>
    if isDiscordHiddenMessage m then page
    else (page.1 ++ [discordMessageToHistory m], older page.2 m)

abbrev Lister := String → String → Int → Except ListError (List (Option Message))

def fetchHistory (messages : Lister) (req : FetchHistoryRequest) :
    Except HistoryError FetchHistoryResult :=
  let limit := if req.limit ≤ 0 ∨ discordHistoryCap < req.limit then discordHistoryCap else req.limit
  if req.target = "" then .error .channelRequired
  else match messages req.target (trimSpace req.cursor) limit with
    | .error (.rateLimit (some retryAfter)) => .error (.rateLimited retryAfter)
    | .error err => .error (.listing err)
    | .ok rawMsgs =>
      let (msgs, oldestID) := rawMsgs.foldl addMessage ([], "")
      let msgs := msgs.reverse
      .ok {
        messages :=
          if 0 < req.limit ∧ req.limit < msgs.length then msgs.drop (msgs.length - req.limit.toNat)
          else msgs
        nextCursor := oldestID
        cap := discordHistoryCap }

/-- The pages so far, and the cursor of the next call unless the last answer had none. -/
structure Paging where
  cursor : Option String := some ""
  pages : List (List HistoryMessage) := []

def Paging.fetch (messages : Lister) (req : FetchHistoryRequest) (s : Paging) (_ : Unit) :
    Option Paging := do
  let result ← (fetchHistory messages { req with cursor := ← s.cursor }).toOption
  pure {
    cursor := if result.nextCursor = "" then none else some result.nextCursor
    pages := s.pages ++ [result.messages] }

def snowflake (id : String) : Nat := id.toList.foldl (fun n c => 10 * n + (c.toNat - '0'.toNat)) 0

def before (history : List Message) (cursor : String) : List Message :=
  history.filter (fun m => cursor = "" ∨ snowflake m.id < snowflake cursor)

def lister (history : List Message) : Lister := fun _ cursor limit =>
  .ok (((before history cursor).take limit.toNat).map some)

def visible (messages : List Message) : List Message :=
  messages.filter (fun m => !isDiscordHiddenMessage m)

def unseen (history : List Message) (cursor : String) : List Message :=
  visible (before history cursor)

def shown (history : List Message) (limit : Int) (cursor : String) : List Message :=
  visible ((before history cursor).take limit.toNat)

/-- The oldest visible message of the page has the smallest id as a string too, and the page shows
a message if there is one to show. -/
def Paging.Meets (history : List Message) (limit : Int) (cursor : String) : Prop :=
  (∀ v ∈ (shown history limit cursor).getLast?, ∀ m ∈ (shown history limit cursor).dropLast,
    less v.id m.id) ∧
    (shown history limit cursor = [] → unseen history cursor = [])

instance (history : List Message) (limit : Int) (cursor : String) :
    Decidable (Paging.Meets history limit cursor) := inferInstanceAs (Decidable (_ ∧ _))

/-- A channel's messages, newest first; the ids are numbers. -/
structure Chronicle (history : List Message) : Prop where
  ids : ∀ m ∈ history, m.id ≠ "" ∧ m.id.toList.all Char.isDigit
  newest : history.Pairwise (fun m n => snowflake n.id < snowflake m.id)

theorem trimSpace_digits {id : String} (h : id.toList.all Char.isDigit) : trimSpace id = id := by
  have hspace : ∀ c ∈ id.toList, isSpace c = false := by
    intro c hc
    have hdigit : 48 ≤ c.toNat ∧ c.toNat ≤ 57 := by
      simpa [Char.isDigit, UInt32.le_iff_toNat_le] using List.all_eq_true.mp h c hc
    simp only [isSpace, List.mem_cons, List.not_mem_nil, or_false, Bool.or_eq_false_iff,
      Bool.and_eq_false_iff, decide_eq_false_iff_not]
    omega
  have hfront : id.toList.dropWhile isSpace = id.toList := by
    rw [List.dropWhile_eq_self_iff]
    intro hl
    simpa using hspace _ (List.getElem_mem hl)
  have hback : id.toList.rdropWhile isSpace = id.toList := by
    rw [List.rdropWhile_eq_self_iff]
    intro hl
    simpa using hspace _ (List.getLast_mem hl)
  rw [trimSpace, hfront, hback, String.ofList_toList]

theorem foldl_addMessage (messages : List Message) (page : List HistoryMessage × String) :
    (messages.map some).foldl addMessage page =
      (page.1 ++ (visible messages).map discordMessageToHistory,
        (visible messages).foldl older page.2) := by
  induction messages generalizing page with
  | nil => simp [visible]
  | cons m rest ih =>
    rw [List.map_cons, List.foldl_cons, ih]
    cases hm : isDiscordHiddenMessage m <;> simp [addMessage, visible, hm]

theorem foldl_older {v : Message} (hv : v.id ≠ "") {newer : List Message}
    (hnewer : ∀ m ∈ newer, less v.id m.id) {start : String} (hstart : start = "" ∨ less v.id start) :
    (newer ++ [v]).foldl older start = v.id := by
  induction newer generalizing start with
  | nil => rcases hstart with rfl | hless <;> simp [older, *]
  | cons m newer ih =>
    obtain ⟨hm, hrest⟩ := List.forall_mem_cons.mp hnewer
    apply ih hrest
    unfold older
    split
    · exact .inr hm
    · exact hstart

section

variable {history : List Message} {req : FetchHistoryRequest} {cursor : String}

theorem fetchHistory_lister (history : List Message) (htarget : req.target ≠ "")
    (hlimit : 1 ≤ req.limit ∧ req.limit ≤ discordHistoryCap) (hcursor : trimSpace cursor = cursor) :
    fetchHistory (lister history) { req with cursor := cursor } = .ok {
      messages := ((shown history req.limit cursor).map discordMessageToHistory).reverse
      nextCursor := (shown history req.limit cursor).foldl older ""
      cap := discordHistoryCap } := by
  have hlen : (shown history req.limit cursor).length ≤ req.limit.toNat :=
    (List.length_filter_le _ _).trans (List.length_take_le _ _)
  have hcap : ¬(req.limit ≤ 0 ∨ discordHistoryCap < req.limit) := by omega
  have hwhole : ¬(0 < req.limit ∧ req.limit < (shown history req.limit cursor).length) := by omega
  have htarget' : FetchHistoryRequest.target { req with cursor := cursor } ≠ "" := htarget
  simp only [fetchHistory, if_neg htarget', if_neg hcap, hcursor, lister, foldl_addMessage]
  rw [← shown]
  simp only [List.nil_append, List.length_reverse, List.length_map, if_neg hwhole]

variable (hhistory : Chronicle history)

include hhistory

theorem unseen_eq {newer : List Message} {v : Message}
    (hshown : shown history req.limit cursor = newer ++ [v]) :
    v ∈ history ∧ unseen history cursor = newer ++ v :: unseen history v.id := by
  obtain ⟨rest, hsplit⟩ : ∃ rest, unseen history cursor = newer ++ v :: rest := by
    refine ⟨visible ((before history cursor).drop req.limit.toNat), ?_⟩
    rw [unseen, ← List.take_append_drop req.limit.toNat (before history cursor), visible,
      List.filter_append, ← visible, ← visible, ← shown, hshown]
    simp
  have hv : v ∈ unseen history cursor := by simp [hsplit]
  obtain ⟨hmem, hbefore⟩ := List.mem_filter.mp (List.mem_filter.mp hv).1
  have hunseen : unseen history v.id =
      (unseen history cursor).filter (fun m => snowflake m.id < snowflake v.id) := by
    simp only [unseen, visible, before, List.filter_filter]
    apply List.filter_congr
    intro m _
    by_cases hlt : snowflake m.id < snowflake v.id
    · have hless := (decide_eq_true_eq.mp hbefore).imp_right hlt.trans
      simp [hlt, hless]
    · simp [hlt, (hhistory.ids v hmem).1]
  have hsorted : (unseen history cursor).Pairwise (fun m n => snowflake n.id < snowflake m.id) :=
    (hhistory.newest.filter _).filter _
  rw [hsplit, List.pairwise_append, List.pairwise_cons] at hsorted
  obtain ⟨-, ⟨holder, -⟩, hnewer⟩ := hsorted
  have hrest : (newer ++ v :: rest).filter (fun m => snowflake m.id < snowflake v.id) = rest := by
    rw [List.filter_append, List.filter_cons_of_neg (by simp), List.filter_eq_nil_iff.mpr,
      List.filter_eq_self.mpr, List.nil_append]
    · intro m hm
      exact decide_eq_true (holder m hm)
    · intro m hm
      simpa using (hnewer m hm v List.mem_cons_self).le
  exact ⟨hmem, by rw [hunseen, hsplit, hrest]⟩

variable (htarget : req.target ≠ "") (hlimit : 1 ≤ req.limit ∧ req.limit ≤ discordHistoryCap)
  {s : Paging} (hs : s.cursor = some cursor) (hcursor : trimSpace cursor = cursor)

include htarget hlimit hs hcursor

theorem Paging.fetch_cases (hok : Meets history req.limit cursor) :
    (unseen history cursor = [] ∧
      s.fetch (lister history) req () = some ⟨none, s.pages ++ [[]]⟩) ∨
    ∃ newer, ∃ v ∈ history,
      unseen history cursor = newer ++ v :: unseen history v.id ∧
      s.fetch (lister history) req () =
        some ⟨some v.id, s.pages ++ [((newer ++ [v]).map discordMessageToHistory).reverse]⟩ := by
  have hfetch := fetchHistory_lister history htarget hlimit hcursor
  rcases List.eq_nil_or_concat' (shown history req.limit cursor) with hnil | ⟨newer, v, hshown⟩
  · refine .inl ⟨hok.2 hnil, ?_⟩
    simp [fetch, hs, hfetch, hnil, Except.toOption]
  · obtain ⟨hmem, hsplit⟩ := unseen_eq hhistory hshown
    have hid := (hhistory.ids v hmem).1
    refine .inr ⟨newer, v, hmem, hsplit, ?_⟩
    have hsmallest := hok.1 v (by simp [hshown])
    rw [hshown, List.dropLast_concat] at hsmallest
    rw [hshown] at hfetch
    have hnext := foldl_older hid hsmallest (.inl rfl)
    simp [fetch, hs, hfetch, hnext, Except.toOption, hid]

theorem Paging.runs {k : Nat} (hlen : (unseen history cursor).length < k)
    (hok : StepsMeet (fetch (lister history) req)
      (fun s _ => ∀ cursor ∈ s.cursor, Meets history req.limit cursor) s (List.replicate k ())) :
    ∃ n t pages, runTrace (fetch (lister history) req) s (List.replicate n ()) = some t ∧
      t.cursor = none ∧ t.pages = s.pages ++ pages ∧
      (pages.map List.reverse).flatten =
        (unseen history cursor).map discordMessageToHistory := by
  -- each call that does not end the paging leaves fewer visible messages before the cursor
  induction k generalizing s cursor with
  | zero => omega
  | succ k ih =>
    rw [List.replicate_succ] at hok
    rcases fetch_cases hhistory htarget hlimit hs hcursor (hok.1 cursor hs) with
      ⟨hnone, hfetch⟩ | ⟨newer, v, hv, hsplit, hfetch⟩
    · refine ⟨1, ⟨none, s.pages ++ [[]]⟩, [[]], ?_, rfl, rfl, by simp [hnone]⟩
      rw [List.replicate_one, runTrace, hfetch, Option.bind_some, runTrace]
    · have hshorter : (unseen history v.id).length < k := by
        rw [hsplit, List.length_append, List.length_cons] at hlen
        omega
      obtain ⟨n, t, pages, hrun, hend, hpages, hall⟩ :=
        ih rfl (trimSpace_digits (hhistory.ids v hv).2) hshorter (hok.2 _ hfetch)
      refine ⟨n + 1, t, [((newer ++ [v]).map discordMessageToHistory).reverse] ++ pages, ?_, hend,
        by rw [hpages, List.append_assoc], ?_⟩
      · rw [List.replicate_succ, runTrace, hfetch, Option.bind_some, hrun]
      · simp [hsplit, hall]

end

/-- Paging ends and yields every visible message once, each page oldest first, if every page it
asks for meets the condition. -/
theorem paging_is_complete {history : List Message} {req : FetchHistoryRequest}
    (hhistory : Chronicle history) (htarget : req.target ≠ "")
    (hlimit : 1 ≤ req.limit ∧ req.limit ≤ discordHistoryCap)
    (hok : StepsMeet (Paging.fetch (lister history) req)
      (fun s _ => ∀ cursor ∈ s.cursor, Paging.Meets history req.limit cursor) {}
      (List.replicate (history.length + 1) ())) :
    ∃ n t, runTrace (Paging.fetch (lister history) req) {} (List.replicate n ()) = some t ∧
      t.cursor = none ∧
      (t.pages.map List.reverse).flatten = (visible history).map discordMessageToHistory := by
  have hwhole : unseen history "" = visible history := by simp [unseen, before]
  have hlen : (unseen history "").length < history.length + 1 := by
    rw [hwhole]
    exact Nat.lt_succ_of_le (List.length_filter_le _ _)
  obtain ⟨n, t, pages, hrun, hend, hpages, hall⟩ :=
    Paging.runs hhistory htarget hlimit rfl trimSpace_empty hlen hok
  rw [List.nil_append] at hpages
  rw [hwhole, ← hpages] at hall
  exact ⟨n, t, hrun, hend, hall⟩

def callLog : List Message := [{ id := "13" }, { id := "12", type := .call }, { id := "11" }]

theorem callLog_paged : ∃ n t, runTrace (Paging.fetch (lister callLog)
      { externalChatID := "7", limit := 2 }) {} (List.replicate n ()) = some t ∧ t.cursor = none ∧
    (t.pages.map List.reverse).flatten = (visible callLog).map discordMessageToHistory := by
  refine paging_is_complete ⟨?_, ?_⟩ ?_ ?_ (stepsMeet_of_check ?_) <;> decide +kernel

/-- The id 99 is the larger string: the second page repeats its message. -/
theorem message_99_repeated : (runTrace (Paging.fetch (lister [{ id := "100" }, { id := "99" }])
      { externalChatID := "7", limit := 2 }) {} (List.replicate 3 ())).map
        (fun s => (s.cursor, s.pages.map (·.map HistoryMessage.externalMessageID))) =
    some (none, [["99", "100"], ["99"], []]) := by
  decide +kernel

end Parsar.Channel
