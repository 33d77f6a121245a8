import LlmGateway.Db.Messages

/-!
# A thread in the browser

`useConversation`: the newest page out of SWR's cache, older pages out of the
component's state. The head is replaced by every revalidation, and slides forward
as turns are stored; what was loaded behind it stays where it is, against the
cursor it was loaded with.
-/

namespace LlmGateway

namespace Frontend

open Messages

/-! ## What the server sends -/

/-- `ConversationDetail`, as far as it is about the thread. Both fields of the paging may be
missing. -/
structure ConversationDetail where
  messages : List Row
  hasMore : Option Bool := none
  nextBeforeSeq : Option Int := none

/-- `read_conversation`: a thread with its newest page. -/
def readConversation (rows : List Row) (limit : Int) : ConversationDetail :=
  let page := listPageForConversation rows none limit
  { messages := page.messages, hasMore := some page.hasMore, nextBeforeSeq := page.nextBeforeSeq }

/-- `read_message_page`. -/
def readMessagePage (rows : List Row) (beforeSeq : Int) (limit : Int) : MessagePage :=
  listPageForConversation rows (some beforeSeq) limit

/-! ## The hook -/

/-- Older pages of one thread, oldest page first. -/
structure ConversationPaging where
  conversationId : String
  pages : List (List Row)
  hasMore : Bool
  nextBeforeSeq : Option Int

/-- `loadOlder`, as a render left it: what the callback has closed over. -/
structure LoadOlder where
  id : Option String := none
  hasMore : Bool := false
  nextBeforeSeq : Option Int := none

/-- A mounted `useConversation`, and the cache its heads come from. -/
structure Hook where
  id : Option String := none
  cache : String → Option ConversationDetail := fun _ => none
  paging : Option ConversationPaging := none
  loadOlder : LoadOlder := {}
  /-- `inFlightRef`, with what the request in flight asks for. -/
  inFlight : Option (String × Int) := none

namespace Hook

def data (hook : Hook) : Option ConversationDetail := hook.id.bind hook.cache

/-- The paging, unless it is another thread's. -/
def loaded (hook : Hook) : Option ConversationPaging :=
  hook.paging.filter fun paging => some paging.conversationId = hook.id

/-- The newest thing that knows: the last page fetched, or the head. -/
def hasMore (hook : Hook) : Bool :=
  match hook.loaded with
  | some loaded => loaded.hasMore
  | none => (hook.data.bind (·.hasMore)).getD false

def nextBeforeSeq (hook : Hook) : Option Int :=
  match hook.loaded with
  | some loaded => loaded.nextBeforeSeq
  | none => hook.data.bind (·.nextBeforeSeq)

def older (hook : Hook) : List Row :=
  match hook.loaded with
  | some loaded => loaded.pages.flatten
  | none => []

def head (hook : Hook) : List Row :=
  match hook.data with
  | some data => data.messages
  | none => []

/-- `messages`: every older page loaded, without what the head has too, then the head. -/
def messages (hook : Hook) : List Row :=
  hook.older.filter (fun message => message.id ∉ hook.head.map (·.id)) ++ hook.head

/-- A render, which makes the callback anew. -/
def render (hook : Hook) : Hook :=
  { hook with
    loadOlder := { id := hook.id, hasMore := hook.hasMore, nextBeforeSeq := hook.nextBeforeSeq } }

/-- A call of `loadOlder`, up to its request. -/
def callLoadOlder (hook : Hook) : Hook :=
  match hook.loadOlder.id, hook.loadOlder.nextBeforeSeq with
  | some id, some nextBeforeSeq =>
    if hook.inFlight.isSome || !hook.loadOlder.hasMore then hook
    else { hook with inFlight := some (id, nextBeforeSeq) }
  | _, _ => hook

/-- The page a request asked for has arrived. -/
def arrives (hook : Hook) (id : String) (page : MessagePage) : Hook :=
  let pages := match hook.paging with
    | some current => if current.conversationId = id then current.pages else []
    | none => []
  { hook with
    paging := some {
      conversationId := id
      pages := page.messages :: pages
      hasMore := page.hasMore
      nextBeforeSeq := page.nextBeforeSeq }
    inFlight := none }

/-- The request has failed, which is swallowed. -/
def fails (hook : Hook) : Hook := { hook with inFlight := none }

/-- What the cache holds for a thread is replaced. -/
def mutate (hook : Hook) (id : String) (detail : ConversationDetail) : Hook :=
  { hook with cache := Function.update hook.cache id (some detail) }

end Hook

/-! ## A completed turn -/

/-- What the client knows of a turn that has completed. -/
structure CompletedTurn where
  messageId : String
  userText : String
  attachments : List FileRef := []
  answer : String
  «meta» : MessageMeta := {}
  deriving DecidableEq, Repr

/-- The user row of a turn, under an id the client makes up. -/
def CompletedTurn.userMessage (turn : CompletedTurn) (baseSeq : Int) : Row where
  id := s!"local-{turn.messageId}-user"
  seq := baseSeq + 1
  role := .user
  content := .text turn.userText :: turn.attachments.map .fileRef

/-- The assistant row, under the id it is stored with. -/
def CompletedTurn.assistantMessage (turn : CompletedTurn) (baseSeq : Int) : Row where
  id := turn.messageId
  seq := baseSeq + 2
  role := .assistant
  content := [.text turn.answer]
  «meta» := turn.meta

/-- What `applyOptimisticTurn` makes of the head. -/
def CompletedTurn.onto (turn : CompletedTurn) (current : Option ConversationDetail) :
    ConversationDetail :=
  let shown := match current with
    | some detail => detail.messages
    | none => []
  let baseSeq := (shown.getLast?.map (·.seq)).getD (-1)
  let messages := shown ++ [turn.userMessage baseSeq, turn.assistantMessage baseSeq]
  match current with
  | some detail => { detail with messages }
  | none => { messages }

/-- `applyOptimisticTurn`, up to the revalidation it asks for. -/
def applyOptimisticTurn (hook : Hook) (id : String) (turn : CompletedTurn) : Hook :=
  hook.mutate id (turn.onto (hook.cache id))

/-! ## Runs -/

/-- The rows of every thread, and the client. -/
structure World where
  rows : String → List Row := fun _ => []
  hook : Hook := {}

/-- Who the threads belong to, and how long the pages of the two routes are. -/
structure Setting where
  owner : String
  headLimit : Int
  pageLimit : Int

/-- What happens, one at a time. A page is read as it arrives: what lies before its cursor does not
change any more. -/
inductive Action where
  | append (id : String) (userId : String) (draft : Draft)
  | completed (id : String) (turn : CompletedTurn)
  | revalidate (id : String)
  | navigate (id : Option String)
  | render
  | loadOlder
  | arrives
  | fails
  deriving DecidableEq, Repr

def World.step (setting : Setting) (world : World) : Action → World
  | .append id userId draft =>
    let rows := (Messages.append setting.owner (world.rows id) userId draft).2
    { world with rows := Function.update world.rows id rows }
  | .completed id turn => { world with hook := applyOptimisticTurn world.hook id turn }
  | .revalidate id =>
    { world with hook := world.hook.mutate id (readConversation (world.rows id) setting.headLimit) }
  | .navigate id => { world with hook := { world.hook with id } }
  | .render => { world with hook := world.hook.render }
  | .loadOlder => { world with hook := world.hook.callLoadOlder }
  | .arrives =>
    match world.hook.inFlight with
    | none => world
    | some (id, beforeSeq) =>
      let page := readMessagePage (world.rows id) beforeSeq setting.pageLimit
      { world with hook := world.hook.arrives id page }
  | .fails => { world with hook := world.hook.fails }

def World.run (setting : Setting) (world : World) (actions : List Action) : World :=
  actions.foldl (World.step setting) world

/-- A call that starts a request is prompt when the last page of its thread has been rendered since
it arrived. -/
def Hook.Prompt (hook : Hook) : Prop :=
  hook.inFlight = none → ∀ paging ∈ hook.paging, hook.loadOlder.id = some paging.conversationId →
    hook.loadOlder.nextBeforeSeq = paging.nextBeforeSeq

/-- Every call of a run is prompt. -/
def Prompt (setting : Setting) (world : World) : List Action → Prop
  | [] => True
  | action :: actions =>
    (action = .loadOlder → world.hook.Prompt) ∧ Prompt setting (world.step setting action) actions

/-- A call that is not: before the page that arrived has been rendered, the callback asks for it
again. -/
theorem Hook.asks_again {hook : Hook} {id : String} {cursor : Int}
    (hid : hook.loadOlder.id = some id) (hcursor : hook.loadOlder.nextBeforeSeq = some cursor)
    (hmore : hook.loadOlder.hasMore = true) (page : MessagePage) :
    (hook.callLoadOlder.arrives id page).callLoadOlder.inFlight = some (id, cursor) := by
  have hcalls : hook.callLoadOlder.loadOlder = hook.loadOlder := by
    unfold callLoadOlder
    split
    · split <;> rfl
    · rfl
  generalize hook.callLoadOlder = called at hcalls
  simp [arrives, callLoadOlder, hcalls, hid, hcursor, hmore]

section

variable {setting : Setting} {world : World} {actions more : List Action}

theorem World.run_append : world.run setting (actions ++ more) =
    (world.run setting actions).run setting more :=
  List.foldl_append

theorem prompt_append : Prompt setting world (actions ++ more) ↔
    Prompt setting world actions ∧ Prompt setting (world.run setting actions) more := by
  induction actions generalizing world with
  | nil => exact (and_iff_right trivial).symm
  | cons action actions ih => exact (and_congr Iff.rfl ih).trans and_assoc.symm

theorem prompt_of_not_mem (h : Action.loadOlder ∉ actions) : Prompt setting world actions := by
  induction actions generalizing world with
  | nil => trivial
  | cons action actions ih =>
    rw [List.mem_cons, not_or] at h
    exact ⟨fun heq => absurd heq.symm h.1, ih h.2⟩

end

/-! ## Stretches of a history -/

section

variable {rows : List Row} {a b c k : ℕ}

/-- Two stretches that meet are one. -/
theorem take_drop_append (hk : c ≤ k) (hb : k ≤ b) :
    (rows.take k).drop c ++ (rows.take b).drop k = (rows.take b).drop c := by
  have htake : (rows.take b).take k = rows.take k := by
    rw [List.take_take, Nat.min_eq_left hb]
  conv_rhs => rw [← List.take_append_drop k (rows.take b), htake]
  by_cases hlength : c ≤ (rows.take k).length
  · rw [List.drop_append_of_le_length hlength]
  · have hnone : (rows.take b).drop k = [] := by
      refine List.drop_eq_nil_of_le ?_
      rw [List.length_take] at hlength ⊢
      omega
    rw [hnone, List.append_nil, List.append_nil]

/-- What a head does not have, of a stretch of the history it ends. -/
theorem filter_stretch (hunique : (rows.map (·.id)).Nodup) :
    ((rows.take b).drop a).filter (fun row => row.id ∉ (rows.drop k).map (·.id)) =
      (rows.take (min b k)).drop a := by
  have hout : ∀ row ∈ rows.take k, row.id ∉ (rows.drop k).map (·.id) := by
    rw [← List.take_append_drop k rows, List.map_append, List.nodup_append] at hunique
    exact fun row hrow hmem => hunique.2.2 _ (List.mem_map_of_mem hrow) _ hmem rfl
  have hbefore : ∀ {j : ℕ}, j ≤ k →
      ((rows.take j).drop a).filter (fun row => row.id ∉ (rows.drop k).map (·.id)) =
        (rows.take j).drop a := by
    intro j hj
    refine List.filter_eq_self.mpr fun row hrow => ?_
    have hmem : row ∈ rows.take k := by
      refine List.take_subset_take_left rows hj (List.mem_of_mem_drop hrow)
    exact decide_eq_true (hout row hmem)
  rcases Nat.le_total b k with hb | hb
  · rw [Nat.min_eq_left hb, hbefore hb]
  · rw [Nat.min_eq_right hb]
    have hsplit : rows.take b = rows.take k ++ (rows.drop k).take (b - k) := by
      rw [← List.take_add]
      congr 1
      omega
    have hafter : ∀ row ∈ ((rows.drop k).take (b - k)).drop (a - (rows.take k).length),
        ¬ decide (row.id ∉ (rows.drop k).map (·.id)) = true := by
      intro row hrow hdecide
      refine of_decide_eq_true hdecide (List.mem_map_of_mem ?_)
      exact List.mem_of_mem_take (List.mem_of_mem_drop hrow)
    rw [hsplit, List.drop_append, List.filter_append, hbefore le_rfl,
      List.filter_eq_nil_iff.mpr hafter, List.append_nil]

end

/-! ## What every step keeps -/

/-- A cursor: the place of a message, or the one behind the last, with something before it. -/
def Cursor (rows : List Row) (cursor : Int) : Prop := 0 < cursor ∧ cursor ≤ rows.length

/-- What pages of a thread hold: a stretch of its history, and where they have been loaded to. -/
def Stretch (rows : List Row) (paging : ConversationPaging) : Prop :=
  ∃ a b : ℕ, a < b ∧ b ≤ rows.length ∧ paging.pages.flatten = (rows.take b).drop a ∧
    ∀ cursor ∈ paging.nextBeforeSeq, cursor = a ∧ 0 < a

theorem Cursor.append {rows : List Row} {cursor : Int} (h : Cursor rows cursor) (after : List Row) :
    Cursor (rows ++ after) cursor := by
  refine ⟨h.1, h.2.trans ?_⟩
  rw [List.length_append]
  push_cast
  omega

theorem Stretch.append {rows : List Row} {paging : ConversationPaging} (h : Stretch rows paging)
    (after : List Row) : Stretch (rows ++ after) paging := by
  obtain ⟨a, b, hab, hb, hpages, hcursor⟩ := h
  refine ⟨a, b, hab, ?_, ?_, hcursor⟩
  · rw [List.length_append]
    omega
  · rw [hpages, List.take_append_of_le_length hb]

theorem Stretch.cursor {rows : List Row} {paging : ConversationPaging} (h : Stretch rows paging)
    {cursor : Int} (hcursor : cursor ∈ paging.nextBeforeSeq) : Cursor rows cursor := by
  obtain ⟨a, b, hab, hb, -, hplace⟩ := h
  obtain ⟨rfl, ha⟩ := hplace cursor hcursor
  exact ⟨by omega, by omega⟩

/-- What every step keeps: whoever holds a cursor holds one of its own thread, and what has been
loaded of a thread is a stretch of it, which the request in flight goes on from. -/
structure Kept (world : World) : Prop where
  sound : ∀ id, Sound (world.rows id)
  unique : ∀ id, ((world.rows id).map (·.id)).Nodup
  cached : ∀ id, ∀ detail ∈ world.hook.cache id, ∀ cursor ∈ detail.nextBeforeSeq,
    Cursor (world.rows id) cursor
  called : ∀ id ∈ world.hook.loadOlder.id, ∀ cursor ∈ world.hook.loadOlder.nextBeforeSeq,
    Cursor (world.rows id) cursor
  asked : ∀ id cursor, world.hook.inFlight = some (id, cursor) → Cursor (world.rows id) cursor ∧
    ∀ paging ∈ world.hook.paging, paging.conversationId = id → paging.nextBeforeSeq = some cursor
  loaded : ∀ paging ∈ world.hook.paging, Stretch (world.rows paging.conversationId) paging

theorem kept_start : Kept {} where
  sound _ := sound_nil
  unique _ := List.nodup_nil
  cached _ _ h := nomatch h
  called _ h := nomatch h
  asked _ _ h := nomatch h
  loaded _ h := nomatch h

section

variable {setting : Setting} {world : World}

/-- What is read of a thread with a cursor. -/
theorem Kept.page (h : Kept world) {id : String} {cursor : Int}
    (hcursor : Cursor (world.rows id) cursor) (limit : Int) :
    readMessagePage (world.rows id) cursor limit =
      { messages := ((world.rows id).take cursor.toNat).drop (cursor.toNat - pageLength limit)
        hasMore := decide (pageLength limit < cursor.toNat)
        nextBeforeSeq := if pageLength limit < cursor.toNat
          then some ((cursor.toNat - pageLength limit : ℕ) : Int) else none } := by
  have hnat : ((cursor.toNat : ℕ) : Int) = cursor := Int.toNat_of_nonneg hcursor.1.le
  refine (h.sound id).page ?_ (by have := hcursor.2; omega) limit
  rw [← hnat]
  exact (h.sound id).filter_before _

/-- A head is the newest of the thread. -/
theorem Kept.head (h : Kept world) (id : String) (limit : Int) :
    readConversation (world.rows id) limit =
      let more := pageLength limit < (world.rows id).length
      { messages := (world.rows id).drop ((world.rows id).length - pageLength limit)
        hasMore := some (decide more)
        nextBeforeSeq := if more
          then some (((world.rows id).length - pageLength limit : ℕ) : Int) else none } := by
  have hall : (world.rows id).filter (fun row => (none : Option Int).all (row.seq < ·)) =
      (world.rows id).take (world.rows id).length := by
    simp
  unfold readConversation
  rw [(h.sound id).page hall le_rfl limit, List.take_length]

/-- Whatever the server gives a cursor for, it is one of the thread. -/
theorem cursor_of_page {rows : List Row} {length k : ℕ} (hk : k ≤ rows.length) {cursor : Int}
    (hcursor : cursor ∈ if length < k then some ((k - length : ℕ) : Int) else none) :
    cursor = ((k - length : ℕ) : Int) ∧ 0 < k - length ∧ Cursor rows cursor := by
  split at hcursor
  next hlt =>
    obtain rfl := Option.mem_some.mp hcursor
    exact ⟨rfl, by omega, by omega, by omega⟩
  next => cases hcursor

theorem Kept.appended (h : Kept world) (id userId : String) (draft : Draft) :
    Kept (world.step setting (.append id userId draft)) := by
  have hgrow : ∀ other, ∃ after,
      (world.step setting (.append id userId draft)).rows other = world.rows other ++ after := by
    intro other
    simp only [World.step, Function.update_apply]
    split
    next heq =>
      subst heq
      rcases append_cases setting.owner (world.rows other) userId draft with hrows | hrows
      · exact ⟨[], by rw [hrows, List.append_nil]⟩
      · obtain ⟨row, hrows, -⟩ := hrows
        exact ⟨[row], hrows⟩
    next => exact ⟨[], (List.append_nil _).symm⟩
  have hcursor : ∀ other cursor, Cursor (world.rows other) cursor →
      Cursor ((world.step setting (.append id userId draft)).rows other) cursor := by
    intro other cursor hcursor
    obtain ⟨after, hrows⟩ := hgrow other
    exact hrows ▸ hcursor.append after
  refine ⟨fun other => ?_, fun other => ?_, ?_, ?_, ?_, ?_⟩
  · simp only [World.step, Function.update_apply]
    split
    next => exact (h.sound id).append _ _ _
    next => exact h.sound other
  · simp only [World.step, Function.update_apply]
    split
    next =>
      rcases append_cases setting.owner (world.rows id) userId draft with hrows | hrows
      · rw [hrows]
        exact h.unique id
      · obtain ⟨row, hrows, hnew⟩ := hrows
        rw [hrows, List.map_append, List.map_singleton]
        exact List.nodup_append.mpr ⟨h.unique id, List.nodup_singleton _, fun x hx y hy heq =>
          hnew (List.mem_singleton.mp hy ▸ heq ▸ hx)⟩
    next => exact h.unique other
  · exact fun other detail hdetail cursor hmem =>
      hcursor other cursor (h.cached other detail hdetail cursor hmem)
  · exact fun other hid cursor hmem => hcursor other cursor (h.called other hid cursor hmem)
  · exact fun other cursor hask =>
      ⟨hcursor other cursor (h.asked other cursor hask).1, (h.asked other cursor hask).2⟩
  · intro paging hpaging
    obtain ⟨after, hrows⟩ := hgrow paging.conversationId
    exact hrows ▸ (h.loaded paging hpaging).append after

/-- A head may be replaced by one with a cursor of its thread. -/
theorem Kept.mutated (h : Kept world) {id : String} {detail : ConversationDetail}
    (hdetail : ∀ cursor ∈ detail.nextBeforeSeq, Cursor (world.rows id) cursor) :
    Kept { world with hook := world.hook.mutate id detail } := by
  refine { h with cached := fun other shown hshown cursor hcursor => ?_ }
  simp only [Hook.mutate, Function.update_apply] at hshown
  split at hshown
  next heq =>
    obtain rfl := Option.mem_some.mp hshown
    exact heq ▸ hdetail cursor hcursor
  next => exact h.cached other shown hshown cursor hcursor

theorem Kept.completed (h : Kept world) (id : String) (turn : CompletedTurn) :
    Kept (world.step setting (.completed id turn)) := by
  refine h.mutated fun cursor hcursor => ?_
  unfold CompletedTurn.onto at hcursor
  cases hcache : world.hook.cache id with
  | none =>
    rw [hcache] at hcursor
    cases hcursor
  | some detail =>
    rw [hcache] at hcursor
    exact h.cached id detail hcache cursor hcursor

theorem Kept.revalidated (h : Kept world) (id : String) :
    Kept (world.step setting (.revalidate id)) := by
  refine h.mutated fun cursor hcursor => ?_
  rw [h.head] at hcursor
  exact (cursor_of_page le_rfl hcursor).2.2

theorem Kept.rendered (h : Kept world) : Kept (world.step setting .render) := by
  refine { h with called := fun id hid cursor hcursor => ?_ }
  simp only [World.step, Hook.render, Hook.nextBeforeSeq, Hook.loaded, Hook.data] at hid hcursor
  rw [Option.mem_def.mp hid] at hcursor
  split at hcursor
  next paging hloaded =>
    obtain ⟨hpaging, heq⟩ := Option.filter_eq_some_iff.mp hloaded
    have hid : paging.conversationId = id := by simpa using heq
    exact hid ▸ (h.loaded paging hpaging).cursor hcursor
  next =>
    obtain ⟨detail, hdetail, hcursor⟩ := Option.bind_eq_some_iff.mp hcursor
    exact h.cached id detail hdetail cursor hcursor

theorem Kept.calls (h : Kept world) (hprompt : world.hook.Prompt) :
    Kept (world.step setting .loadOlder) := by
  simp only [World.step, Hook.callLoadOlder]
  split
  next id cursor hid hcursor =>
    split
    · exact h
    next hfree =>
      refine { h with asked := fun other asked hask => ?_ }
      obtain ⟨rfl, rfl⟩ := Prod.mk.inj (Option.some.inj hask)
      refine ⟨h.called id hid cursor hcursor, fun paging hpaging heq => ?_⟩
      have hnone : world.hook.inFlight = none := by
        cases hinFlight : world.hook.inFlight with
        | none => rfl
        | some asked => simp [hinFlight] at hfree
      exact (hprompt hnone paging hpaging (heq ▸ hid)).symm.trans hcursor
  next => exact h

theorem Kept.arrived (h : Kept world) : Kept (world.step setting .arrives) := by
  simp only [World.step]
  split
  next => exact h
  next id cursor hask =>
    obtain ⟨hcursor, hjoin⟩ := h.asked id cursor hask
    refine { h with
      asked := fun _ _ hask => nomatch hask
      loaded := fun paging hpaging => ?_ }
    obtain rfl := Option.mem_some.mp hpaging
    have hplace : cursor.toNat ≤ (world.rows id).length := by
      have := hcursor.2
      omega
    have hpos := hcursor.1
    have hlength := pageLength_pos setting.pageLimit
    rw [h.page hcursor]
    -- the page ends where what was loaded begins
    have hnew : ∀ pages : List (List Row), ∀ b, cursor.toNat ≤ b → b ≤ (world.rows id).length →
        pages.flatten = ((world.rows id).take b).drop cursor.toNat →
        Stretch (world.rows id) {
          conversationId := id
          pages := (((world.rows id).take cursor.toNat).drop
            (cursor.toNat - pageLength setting.pageLimit)) :: pages
          hasMore := decide (pageLength setting.pageLimit < cursor.toNat)
          nextBeforeSeq := if pageLength setting.pageLimit < cursor.toNat
            then some ((cursor.toNat - pageLength setting.pageLimit : ℕ) : Int) else none } := by
      intro pages b hb hrows hpages
      refine ⟨cursor.toNat - pageLength setting.pageLimit, b, by omega, hrows, ?_, ?_⟩
      · rw [List.flatten_cons, hpages, take_drop_append (Nat.sub_le _ _) hb]
      · intro next hnext
        obtain ⟨heq, hlt, -⟩ := cursor_of_page hplace hnext
        exact ⟨heq, hlt⟩
    have hfirst := hnew [] cursor.toNat le_rfl hplace
      (List.drop_eq_nil_of_le (by rw [List.length_take]; omega)).symm
    cases hpaging : world.hook.paging with
    | none => exact hfirst
    | some current =>
      by_cases hid : current.conversationId = id
      · obtain ⟨a, b, hab, hb, hpages, hend⟩ := h.loaded current hpaging
        obtain ⟨rfl, -⟩ := hend cursor (hjoin current hpaging hid)
        dsimp only
        rw [if_pos hid]
        rw [hid] at hb hpages
        exact hnew current.pages b (by omega) hb (by simpa using hpages)
      · dsimp only
        rw [if_neg hid]
        exact hfirst

/-- **One step.** -/
theorem Kept.step (h : Kept world) {action : Action}
    (hprompt : action = .loadOlder → world.hook.Prompt) : Kept (world.step setting action) := by
  cases action with
  | append id userId draft => exact h.appended id userId draft
  | completed id turn => exact h.completed id turn
  | revalidate id => exact h.revalidated id
  | navigate id => exact { h with }
  | render => exact h.rendered
  | loadOlder => exact h.calls (hprompt rfl)
  | arrives => exact h.arrived
  | fails => exact { h with asked := fun _ _ hask => nomatch hask }

/-- **A run.** -/
theorem Kept.run (h : Kept world) {actions : List Action} (hprompt : Prompt setting world actions) :
    Kept (world.run setting actions) := by
  induction actions generalizing world with
  | nil => exact h
  | cons action actions ih => exact ih (h.step hprompt.1) hprompt.2

end

/-! ## What is on screen -/

/-- **No hole**: a run of the history up to its newest message, each message once and in order. -/
structure Whole (history shown : List Row) : Prop where
  contiguous : shown <:+ history
  newest : shown.getLast? = history.getLast?
  once : (shown.map (·.id)).Nodup
  ordered : shown.Pairwise fun row later => row.seq < later.seq

section

variable {rows : List Row} {a b k : ℕ}

/-- The newest messages of a thread, at least one if there is one. -/
theorem whole_drop (hsound : Sound rows) (hunique : (rows.map (·.id)).Nodup)
    (hk : rows ≠ [] → k < rows.length) : Whole rows (rows.drop k) where
  contiguous := List.drop_suffix k rows
  newest := by
    by_cases hempty : rows = []
    · rw [hempty, List.drop_nil]
    · rw [List.getLast?_drop, if_neg (by have := hk hempty; omega)]
  once := hunique.sublist ((List.drop_sublist k rows).map _)
  ordered := hsound.ordered.sublist (List.drop_sublist k rows)

/-- The newest message of a stretch is the one before its end. -/
theorem newest_of_stretch (hsound : Sound rows) (hab : a < b) (hb : b ≤ rows.length) :
    ((rows.take b).drop a).getLast?.map (·.seq) = some ((b : Int) - 1) := by
  have hplace := hsound.seq_getElem (i := b - 1) (by omega)
  have hlength : ¬ (rows.take b).length ≤ a := by
    rw [List.length_take]
    omega
  rw [List.getLast?_drop, if_neg hlength, List.getLast?_take, if_neg (by omega)]
  cases hrow : rows[b - 1]? with
  | none =>
    rw [hrow] at hplace
    cases hplace
  | some row =>
    rw [hrow] at hplace
    rw [Option.some_or, hplace]
    exact congrArg some (by omega)

/-- A stretch that reaches the head makes one run with it. -/
theorem whole_of_reaches (hsound : Sound rows) (hunique : (rows.map (·.id)).Nodup)
    (hk : rows ≠ [] → k < rows.length) : Whole rows ((rows.take k).drop a ++ rows.drop k) := by
  rcases Nat.le_total a k with ha | ha
  · have hjoin : (rows.take k).drop a ++ (rows.take (rows.length + k)).drop k =
        (rows.take (rows.length + k)).drop a := take_drop_append ha (Nat.le_add_left _ _)
    rw [List.take_of_length_le (Nat.le_add_right _ _)] at hjoin
    rw [hjoin]
    exact whole_drop hsound hunique fun hne => ha.trans_lt (hk hne)
  · rw [List.drop_eq_nil_of_le (by rw [List.length_take]; omega), List.nil_append]
    exact whole_drop hsound hunique hk

/-- A stretch that ends before the head leaves a hole. -/
theorem not_whole_of_gap (hsound : Sound rows) (hab : a < b) (hbk : b < k) (hk : k ≤ rows.length) :
    ¬ Whole rows ((rows.take b).drop a ++ rows.drop k) := by
  intro hwhole
  have hsuffix := List.suffix_iff_eq_drop.mp hwhole.contiguous
  have hlength : ((rows.take b).drop a ++ rows.drop k).length = (b - a) + (rows.length - k) := by
    rw [List.length_append, List.length_drop, List.length_drop, List.length_take]
    omega
  -- its first message would be at another place than it is
  have hfirst : ((rows.take b).drop a ++ rows.drop k).head? = rows[a]? := by
    have ha : rows[a]? = some rows[a] := List.getElem?_eq_getElem (by omega)
    rw [List.head?_append, List.head?_drop, List.getElem?_take_of_lt hab, ha]
    rfl
  have hplace := hsound.seq_getElem (i := a) (by omega)
  rw [← hfirst, hsuffix, List.head?_drop, hlength, hsound.seq_getElem (by omega)] at hplace
  have heq := Option.some.inj hplace
  omega

end

section

variable {setting : Setting} {world : World} {id : String}

/-- What older pages are on screen. -/
theorem Kept.older (h : Kept world) (hid : world.hook.id = some id) :
    world.hook.older = [] ∨ ∃ a b, a < b ∧ b ≤ (world.rows id).length ∧
      world.hook.older = ((world.rows id).take b).drop a := by
  unfold Hook.older Hook.loaded
  rw [hid]
  split
  next paging hloaded =>
    obtain ⟨hpaging, heq⟩ := Option.filter_eq_some_iff.mp hloaded
    have hthread : paging.conversationId = id := by simpa using heq
    obtain ⟨a, b, hab, hb, hpages, -⟩ := h.loaded paging hpaging
    rw [hthread] at hb hpages
    exact .inr ⟨a, b, hab, hb, hpages⟩
  next => exact .inl rfl

/-- What is on screen after a revalidation. -/
theorem Kept.messages (h : Kept world) (hid : world.hook.id = some id) :
    (world.step setting (.revalidate id)).hook.messages =
      let newest := (world.rows id).drop ((world.rows id).length - pageLength setting.headLimit)
      world.hook.older.filter (fun message => message.id ∉ newest.map (·.id)) ++ newest := by
  have hhead : (world.step setting (.revalidate id)).hook.head =
      (world.rows id).drop ((world.rows id).length - pageLength setting.headLimit) := by
    simp only [World.step, Hook.mutate, Hook.head, Hook.data, hid, Option.bind_some,
      Function.update_self, h.head]
  unfold Hook.messages
  rw [hhead]
  rfl

/-- **Where the screen has no hole**: where the head still reaches back to the newest of the older
messages. -/
theorem Kept.whole_iff (h : Kept world) (hid : world.hook.id = some id) :
    Whole (listForConversation (world.rows id))
        (world.step setting (.revalidate id)).hook.messages ↔
      ∀ newest ∈ world.hook.older.getLast?,
        ((world.rows id).length : Int) ≤ newest.seq + 1 + pageLength setting.headLimit := by
  have hpos := pageLength_pos setting.headLimit
  have hk : world.rows id ≠ [] →
      (world.rows id).length - pageLength setting.headLimit < (world.rows id).length := by
    intro hne
    have := List.length_pos_iff.mpr hne
    omega
  rw [(h.sound id).listForConversation, h.messages hid]
  rcases h.older hid with holder | ⟨a, b, hab, hb, holder⟩
  · rw [holder]
    refine iff_of_true ?_ fun newest hnewest => nomatch hnewest
    exact whole_drop (h.sound id) (h.unique id) hk
  · have hreaches : (∀ newest ∈ world.hook.older.getLast?,
          ((world.rows id).length : Int) ≤ newest.seq + 1 + pageLength setting.headLimit) ↔
        (world.rows id).length - pageLength setting.headLimit ≤ b := by
      have hnewest := newest_of_stretch (h.sound id) hab hb
      rw [← holder] at hnewest
      obtain ⟨newest, hlast, hseq⟩ := Option.map_eq_some_iff.mp hnewest
      rw [hlast]
      constructor
      · intro hall
        have hle := hall newest rfl
        omega
      · rintro hle other hother
        obtain rfl := Option.mem_some.mp hother
        omega
    rw [hreaches, holder]
    dsimp only
    rw [filter_stretch (h.unique id)]
    constructor
    · intro hwhole
      by_contra hgap
      rw [Nat.min_eq_left (by omega)] at hwhole
      exact not_whole_of_gap (h.sound id) hab (by omega) (Nat.sub_le _ _) hwhole
    · intro hle
      rw [Nat.min_eq_right hle]
      exact whole_of_reaches (h.sound id) (h.unique id) hk

end

/-- **The transcript on screen.** However pages are loaded, turns are stored and heads replaced, what
is on screen after a revalidation has no hole if and only if no more has been stored behind the
newest of the older messages than a head holds. -/
theorem messages_whole_iff (setting : Setting) (actions : List Action) (id : String)
    (hprompt : Prompt setting {} actions)
    (hid : (World.run setting {} actions).hook.id = some id) :
    let world := World.run setting {} actions
    Whole (listForConversation (world.rows id))
        (world.step setting (.revalidate id)).hook.messages ↔
      ∀ newest ∈ world.hook.older.getLast?,
        ((world.rows id).length : Int) ≤ newest.seq + 1 + pageLength setting.headLimit :=
  (kept_start.run hprompt).whole_iff hid

/-! ### Reading back -/

def asks (text : String) (seq : Int) (id : String) : Row :=
  { role := .user, content := [.text text], seq, id }

def answers (text : String) (seq : Int) (id : String) : Row :=
  { role := .assistant, content := [.text text], seq, id
    «meta» := { providerUsed := some "groq" } }

/-- Three questions, each with its answer. -/
def thread : List Row :=
  [asks "a" 0 "u0", answers "b" 1 "a0", asks "c" 2 "u1", answers "d" 3 "a1", asks "e" 4 "u2",
    answers "f" 5 "a2"]

/-- Two messages to a page. -/
def twos : Setting := { owner := "alice", headLimit := 2, pageLimit := 2 }

def tells (row : Row) : Action := .append "t" "alice" row.draft

/-- A thread of four messages is opened, and read back by a page. -/
def reading : List Action :=
  (thread.take 4).map tells ++
    [.navigate (some "t"), .revalidate "t", .render, .loadOlder, .arrives, .render]

theorem sound_told : Sound (thread.take 4) := rfl

theorem readConversation_told : readConversation (thread.take 4) 2 =
    { messages := (thread.take 4).drop 2, hasMore := some true, nextBeforeSeq := some 2 } := by
  unfold readConversation
  rw [sound_told.page (k := 4) rfl le_rfl]
  rfl

theorem readMessagePage_told : readMessagePage (thread.take 4) 2 2 =
    { messages := thread.take 2, hasMore := false, nextBeforeSeq := none } := by
  unfold readMessagePage
  rw [sound_told.page (k := 2) rfl (by decide)]
  rfl

/-- The whole of the thread has been read. -/
theorem run_reading :
    Prompt twos {} reading ∧ (World.run twos {} reading).rows "t" = thread.take 4 ∧
      (World.run twos {} reading).hook.id = some "t" ∧
      (World.run twos {} reading).hook.older = thread.take 2 := by
  have hrows : (World.run twos {} ((thread.take 4).map tells)).rows "t" = thread.take 4 := by
    decide
  have hhook : (World.run twos {} ((thread.take 4).map tells)).hook = {} := rfl
  have htold : Prompt twos {} ((thread.take 4).map tells) := prompt_of_not_mem (by decide)
  unfold reading
  rw [prompt_append, World.run_append]
  generalize World.run twos {} ((thread.take 4).map tells) = told at hrows hhook
  refine ⟨⟨htold, ?_⟩, ?_⟩
  · simp [Prompt, Hook.Prompt, World.step, Hook.mutate, Hook.render, hhook]
  · have hhead : twos.headLimit = 2 := rfl
    have hpage : twos.pageLimit = 2 := rfl
    simp [World.run, World.step, hrows, hhook, hhead, hpage, readConversation_told, Hook.mutate,
      Hook.render, Hook.hasMore, Hook.nextBeforeSeq, Hook.loaded, Hook.data, Hook.callLoadOlder,
      readMessagePage_told, Hook.arrives, Hook.older, Option.filter_some]

theorem messages_whole_reading :
    Whole (listForConversation ((World.run twos {} reading).rows "t"))
      ((World.run twos {} reading).step twos (.revalidate "t")).hook.messages := by
  obtain ⟨hprompt, hrows, hid, holder⟩ := run_reading
  refine (messages_whole_iff twos reading "t" hprompt hid).mpr ?_
  rw [hrows, holder]
  decide

/-- Then a turn completes. -/
def sliding : List Action :=
  reading ++ ((thread.drop 4).map tells ++
    [.completed "t" { messageId := "a2", userText := "e", answer := "f" }])

theorem run_sliding :
    Prompt twos {} sliding ∧ (World.run twos {} sliding).rows "t" = thread ∧
      (World.run twos {} sliding).hook.id = some "t" ∧
      (World.run twos {} sliding).hook.older = thread.take 2 := by
  obtain ⟨hprompt, hrows, hid, holder⟩ := run_reading
  unfold sliding
  rw [prompt_append, World.run_append]
  generalize World.run twos {} reading = read at hrows hid holder
  refine ⟨⟨hprompt, prompt_of_not_mem (by decide)⟩, ?_, hid, holder⟩
  have hfifth : (Messages.append "alice" (thread.take 4) "alice" (asks "e" 4 "u2").draft).2 =
      thread.take 5 := by decide
  have hsixth : (Messages.append "alice" (thread.take 5) "alice" (answers "f" 5 "a2").draft).2 =
      thread := by decide
  have hdrop : thread.drop 4 = [asks "e" 4 "u2", answers "f" 5 "a2"] := rfl
  have howner : twos.owner = "alice" := rfl
  simp [World.run, World.step, hdrop, howner, tells, hrows, hfifth, hsixth]

/-- The head has slid past the page that was loaded, and what was between them is on neither. -/
theorem not_messages_whole :
    ¬ ∀ (setting : Setting) (actions : List Action) (id : String),
      (World.run setting {} actions).hook.id = some id →
      Whole (listForConversation ((World.run setting {} actions).rows id))
        ((World.run setting {} actions).step setting (.revalidate id)).hook.messages := by
  intro hall
  obtain ⟨hprompt, hrows, hid, holder⟩ := run_sliding
  have hwhole := ((kept_start.run hprompt).whole_iff hid).mp (hall twos sliding "t" hid)
  rw [hrows, holder] at hwhole
  exact absurd hwhole (by decide)

end Frontend

end LlmGateway
