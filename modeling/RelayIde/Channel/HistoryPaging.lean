import RelayIde.Channel.MessageStore
import RelayIde.Library.Paging

/-!
# History Pages

The two routes that list the rows of a channel page by page (`server/channel-chat-router.ts`):
the messages of a channel and those of a thread.  Both read one row more than they show, cut the
page again to a byte budget, and name the cursor the next request continues from.

- `history_exact_iff` — when what it collects is every one of them: the store caps what it reads
  of a channel at the largest page, so that the lookahead row of such a page is never read
-/

open List

namespace RelayIde.Channel

open RelayIde.Library
open MessageLog (cleanLimit channelHistoryDefaultLimit channelHistoryMaxLimit)

/-! ## Reading -/

/-- The listing a route serves. -/
inductive HistoryScope where
  /-- `GET /channels/:id/messages`, of one thread's replies if it is named. -/
  | channel (threadId : Option ChannelMessageId)
  /-- `GET /channels/:id/threads/:rootMessageId`: the root and its replies. -/
  | thread (rootMessageId : ChannelMessageId)

def HistoryScope.shows : HistoryScope → MessageRow → Bool
  | .channel none, _ => true
  | .channel (some threadId), m => decide (m.threadId = some threadId)
  | .thread rootMessageId, m =>
    decide (m.id = rootMessageId) || decide (m.threadId = some rootMessageId)

/-- The most rows the store returns: `threadHistory` leaves room for the lookahead row. -/
def HistoryScope.maxLimit : HistoryScope → ℕ
  | .channel _ => channelHistoryMaxLimit
  | .thread _ => channelHistoryMaxLimit + 1

structure HistoryCursor where
  afterSeq : Option ℕ := none
  beforeSeq : Option ℕ := none

inductive Direction where
  | forward
  | backward

/-- `afterSeq` takes precedence. -/
def HistoryCursor.direction (cursor : HistoryCursor) : Direction :=
  if cursor.afterSeq.isSome then .forward else .backward

def rowsBeyond (scope : HistoryScope) (rows : List MessageRow) (cursor : HistoryCursor) :
    List MessageRow :=
  match cursor.afterSeq with
  | some afterSeq => (rows.filter scope.shows).filter fun m => decide (afterSeq < m.seq)
  | none =>
    match cursor.beforeSeq with
    | some beforeSeq => (rows.filter scope.shows).filter fun m => decide (m.seq < beforeSeq)
    | none => rows.filter scope.shows

/-- `history()` and `threadHistory()`: the rows next to the cursor, in sequence order. -/
def readHistory (scope : HistoryScope) (rows : List MessageRow) (cursor : HistoryCursor)
    (limit : ℕ) : List MessageRow :=
  let limit := cleanLimit (some limit) scope.maxLimit
  match cursor.direction with
  | .forward => (rowsBeyond scope rows cursor).take limit
  | .backward => newest limit (rowsBeyond scope rows cursor)

/-! ## Pages -/

structure HistoryPage where
  rows : List MessageRow
  hasMore : Bool
  nextCursor : Option HistoryCursor

/-- The cursor behind a page: its last row, or its first when paging backward. -/
def cursorBehind (direction : Direction) (rows : List MessageRow) : Option HistoryCursor :=
  match direction with
  | .forward => rows.getLast?.map fun m => { afterSeq := some m.seq }
  | .backward => rows.head?.map fun m => { beforeSeq := some m.seq }

/-- A page trimmed to the byte budget; it always keeps one row.  `size` is the length of a row's
    JSON text. -/
def HistoryPage.budgetHistoryRows (size : MessageRow → ℕ) (messages : List MessageRow)
    (direction : Direction) (maxBytes : ℕ) : HistoryPage :=
  if messages = [] then ⟨[], false, none⟩
  else
    let order := match direction with
      | .backward => messages.reverse
      | .forward => messages
    let cut := takeWithin (fun m => size m + 1) maxBytes true 0 order
    let kept := match direction with
      | .backward => cut.kept.reverse
      | .forward => cut.kept
    if cut.truncated = false then ⟨kept, false, none⟩
    else ⟨kept, true, cursorBehind direction kept⟩

def limitRows (limit : ℕ) (direction : Direction) (messages : List MessageRow) :
    List MessageRow :=
  if limit < messages.length then
    match direction with
    | .forward => messages.take limit
    | .backward => messages.drop (messages.length - limit)
  else messages

def budgetHistoryPage (size : MessageRow → ℕ) (messages : List MessageRow) (direction : Direction)
    (limit maxBytes : ℕ) : HistoryPage :=
  let rowTruncated := decide (limit < messages.length)
  let budgeted := HistoryPage.budgetHistoryRows size (limitRows limit direction messages) direction
    maxBytes
  if budgeted.hasMore = true ∨ rowTruncated = false then budgeted
  else { budgeted with hasMore := true, nextCursor := cursorBehind direction budgeted.rows }

/-- `parseHistoryLimit`, of what `parseSeqQuery` makes of the query. -/
def parseHistoryLimit : Option ℕ → ℕ
  | none => channelHistoryDefaultLimit
  | some parsed => max 1 (min channelHistoryMaxLimit parsed)

/-- A listing: what stays the same from one request of a walk to the next. -/
structure HistoryListing where
  scope : HistoryScope
  /-- The `limit` query. -/
  limit : Option ℕ
  size : MessageRow → ℕ
  maxBytes : ℕ
  /-- The rows of the channel, in sequence order. -/
  rows : List MessageRow
  ranked : Ranked (fun m : MessageRow => m.seq) rows

namespace HistoryListing

variable (listing : HistoryListing)

/-- One request. -/
def serveHistory (cursor : HistoryCursor) : HistoryPage :=
  let limit := parseHistoryLimit listing.limit
  budgetHistoryPage listing.size
    (readHistory listing.scope listing.rows cursor (limit + 1)) cursor.direction limit
    listing.maxBytes

/-- A client that follows `nextCursor` until `hasMore` is false, for at most so many requests. -/
def walkHistory : ℕ → HistoryCursor → Option (List (List MessageRow))
  | 0, _ => none
  | fuel + 1, cursor =>
    let page := listing.serveHistory cursor
    if page.hasMore then
      page.nextCursor.bind fun next => (walkHistory fuel next).map (page.rows :: ·)
    else some [page.rows]

end HistoryListing

/-- Pages put together: backward, each stands before those fetched earlier. -/
def assemblePages (direction : Direction) (pages : List (List MessageRow)) : List MessageRow :=
  match direction with
  | .forward => pages.flatten
  | .backward => pages.reverse.flatten

/-! ## A walk in the order of its direction -/

/-- Rows in the order in which a direction goes through them. -/
def orient (direction : Direction) (rows : List MessageRow) : List MessageRow :=
  match direction with
  | .forward => rows
  | .backward => rows.reverse

variable (limit : ℕ) (direction : Direction) (rows : List MessageRow)

@[simp] theorem orient_orient : orient direction (orient direction rows) = rows := by
  cases direction
  · rfl
  · exact reverse_reverse rows

@[simp] theorem length_orient : (orient direction rows).length = rows.length := by
  cases direction
  · rfl
  · exact length_reverse

def walkOrder (scope : HistoryScope) (rows : List MessageRow) (cursor : HistoryCursor) :
    List MessageRow :=
  orient cursor.direction (rowsBeyond scope rows cursor)

theorem orient_readHistory (scope : HistoryScope) (rows : List MessageRow) (cursor : HistoryCursor)
    (limit : ℕ) :
    orient cursor.direction (readHistory scope rows cursor limit) =
      (walkOrder scope rows cursor).take (cleanLimit (some limit) scope.maxLimit) := by
  unfold readHistory walkOrder
  cases cursor.direction
  · rfl
  · exact reverse_reverse _

theorem budgetHistoryRows_eq (size : MessageRow → ℕ) (messages : List MessageRow)
    (direction : Direction) (maxBytes : ℕ) :
    let cut := takeWithin (fun m => size m + 1) maxBytes true 0 (orient direction messages)
    (HistoryPage.budgetHistoryRows size messages direction maxBytes).rows =
        orient direction cut.kept ∧
      (HistoryPage.budgetHistoryRows size messages direction maxBytes).hasMore = cut.truncated ∧
      (cut.truncated = true →
        (HistoryPage.budgetHistoryRows size messages direction maxBytes).nextCursor =
          cursorBehind direction (orient direction cut.kept)) := by
  unfold HistoryPage.budgetHistoryRows
  by_cases hnil : messages = []
  · rw [hnil]
    cases direction <;> exact ⟨rfl, rfl, by simp [orient, takeWithin]⟩
  · rw [if_neg hnil]
    cases direction <;>
      · simp only [orient]
        split
        · next hcut => exact ⟨rfl, hcut.symm, by simp [hcut]⟩
        · next hcut =>
          rw [Bool.not_eq_false] at hcut
          exact ⟨rfl, hcut.symm, fun _ => rfl⟩

theorem orient_limitRows (messages : List MessageRow) :
    orient direction (limitRows limit direction messages) =
      (orient direction messages).take limit := by
  unfold limitRows
  split
  · cases direction
    · rfl
    · simp only [orient, take_reverse]
  · next hshort =>
    -- nothing is cut
    rw [take_of_length_le]
    rw [length_orient]
    omega

/-- **One page**: what the limit and then the budget leave of the window. -/
theorem budgetHistoryPage_eq (size : MessageRow → ℕ) {messages l : List MessageRow}
    {direction : Direction} {window : ℕ} (limit maxBytes : ℕ)
    (hmessages : orient direction messages = l.take window) :
    let page := firstPage (fun m => size m + 1) maxBytes limit window l
    (budgetHistoryPage size messages direction limit maxBytes).rows = orient direction page.1 ∧
      (budgetHistoryPage size messages direction limit maxBytes).hasMore = page.2 ∧
      (page.2 = true →
        (budgetHistoryPage size messages direction limit maxBytes).nextCursor =
          cursorBehind direction (orient direction page.1)) := by
  have hlength : messages.length = (l.take window).length := by
    rw [← hmessages, length_orient]
  obtain ⟨hkept, hmore, hcursor⟩ :=
    budgetHistoryRows_eq size (limitRows limit direction messages) direction maxBytes
  rw [orient_limitRows, hmessages] at hkept hmore hcursor
  unfold budgetHistoryPage firstPage
  simp only [hlength]
  cases hcut : (takeWithin (fun m => size m + 1) maxBytes true 0
    ((l.take window).take limit)).truncated
  · -- the budget holds: the row limit decides
    rw [hcut] at hmore
    by_cases hlimit : limit < (l.take window).length
    · rw [decide_eq_true hlimit, hmore]
      exact ⟨hkept, rfl, fun _ => congrArg (cursorBehind direction) hkept⟩
    · rw [decide_eq_false hlimit, if_pos (.inr rfl)]
      exact ⟨hkept, hmore, fun h => by simp at h⟩
  · rw [hcut] at hmore
    rw [if_pos (.inl hmore)]
    exact ⟨hkept, hmore, fun _ => hcursor hcut⟩

/-! ## Walks -/

theorem walkOrder_cursorBehind {scope : HistoryScope} {rows : List MessageRow}
    (hranked : Ranked (fun m : MessageRow => m.seq) rows) {cursor : HistoryCursor}
    {page : List MessageRow} (hpage : page ≠ []) (hstart : page <+: walkOrder scope rows cursor) :
    ∃ next, cursorBehind cursor.direction (orient cursor.direction page) = some next ∧
      next.direction = cursor.direction ∧
      walkOrder scope rows next = (walkOrder scope rows cursor).drop page.length := by
  have hshown : Ranked (fun m : MessageRow => m.seq) (rows.filter scope.shows) :=
    hranked.filter scope.shows
  obtain ⟨afterSeq, beforeSeq⟩ := cursor
  cases afterSeq with
  | some afterSeq =>
    -- forward: the page ends in its highest sequence number
    have hlast : page.getLast? = some (page.getLast hpage) := getLast?_eq_some_getLast hpage
    have hbeyond : page <+: (rows.filter scope.shows).filter
      (fun m => decide (afterSeq < m.seq)) := hstart
    refine ⟨{ afterSeq := some (page.getLast hpage).seq }, ?_, rfl, ?_⟩
    · show (page.getLast?.map _) = _
      rw [hlast]
      rfl
    · apply hshown.filter_gt_page
      rw [← prefix_iff_eq_take.mp hbeyond]
      exact hlast
  | none =>
    -- backward: what is beyond the cursor ends in the page
    obtain ⟨front, hfront⟩ : page.reverse <:+ rowsBeyond scope rows ⟨none, beforeSeq⟩ := by
      rw [← reverse_prefix, reverse_reverse]
      exact hstart
    obtain ⟨first, rest, hrest⟩ := exists_cons_of_ne_nil (reverse_ne_nil_iff.mpr hpage)
    have hbeyond : rowsBeyond scope rows { beforeSeq := some first.seq } = front := by
      rw [hrest] at hfront
      cases beforeSeq with
      | none =>
        have hrows : front ++ first :: rest = rows.filter scope.shows := hfront
        show (rows.filter scope.shows).filter _ = front
        rw [← hrows] at hshown ⊢
        exact hshown.filter_lt_append
      | some beforeSeq =>
        have hrows : front ++ first :: rest = (rows.filter scope.shows).filter
          (fun m => decide (m.seq < beforeSeq)) := hfront
        have hfirst : first.seq < beforeSeq := by
          have hmem : first ∈ (rows.filter scope.shows).filter
              (fun m => decide (m.seq < beforeSeq)) := by
            rw [← hrows]
            exact mem_append_right _ mem_cons_self
          exact of_decide_eq_true (mem_filter.mp hmem).2
        have hbelow := hshown.filter fun m => decide (m.seq < beforeSeq)
        rw [← hrows] at hbelow
        rw [← hbelow.filter_lt_append, hrows, filter_filter]
        apply filter_congr
        intro m _
        by_cases hm : m.seq < first.seq
        · rw [decide_eq_true hm, decide_eq_true (hm.trans hfirst)]
          rfl
        · rw [decide_eq_false hm]
          rfl
    refine ⟨{ beforeSeq := some first.seq }, ?_, rfl, ?_⟩
    · show (page.reverse.head?.map _) = _
      rw [hrest]
      rfl
    · show (rowsBeyond scope rows { beforeSeq := some first.seq }).reverse =
        (rowsBeyond scope rows ⟨none, beforeSeq⟩).reverse.drop page.length
      rw [hbeyond, ← hfront, reverse_append, reverse_reverse, drop_left]

namespace HistoryListing

variable (listing : HistoryListing)

/-- The rows a request shows per page. -/
def pageLimit : ℕ := parseHistoryLimit listing.limit

/-- The rows a request reads. -/
def window : ℕ := cleanLimit (some (listing.pageLimit + 1)) listing.scope.maxLimit

/-- What a row counts against the budget. -/
def weight (m : MessageRow) : ℕ := listing.size m + 1

/-- What a walk from the cursor goes through. -/
def ahead (cursor : HistoryCursor) : List MessageRow :=
  walkOrder listing.scope listing.rows cursor

theorem pageLimit_pos : 0 < listing.pageLimit := by
  unfold pageLimit parseHistoryLimit
  split
  · decide
  · exact Nat.lt_of_lt_of_le Nat.zero_lt_one (le_max_left _ _)

theorem serveHistory_eq (cursor : HistoryCursor) :
    let page := firstPage listing.weight listing.maxBytes listing.pageLimit listing.window
      (listing.ahead cursor)
    (listing.serveHistory cursor).rows = orient cursor.direction page.1 ∧
      (listing.serveHistory cursor).hasMore = page.2 ∧
      (page.2 = true →
        (listing.serveHistory cursor).nextCursor =
          cursorBehind cursor.direction (orient cursor.direction page.1)) :=
  budgetHistoryPage_eq listing.size listing.pageLimit listing.maxBytes
    (orient_readHistory listing.scope listing.rows cursor (listing.pageLimit + 1))

theorem nextCursor_eq {cursor : HistoryCursor}
    (hmore : (listing.serveHistory cursor).hasMore = true) :
    ∃ next, (listing.serveHistory cursor).nextCursor = some next ∧
      next.direction = cursor.direction ∧
      listing.ahead next = (listing.ahead cursor).drop
        (firstPage listing.weight listing.maxBytes listing.pageLimit listing.window
          (listing.ahead cursor)).1.length := by
  obtain ⟨-, hmore', hcursor⟩ := listing.serveHistory_eq cursor
  rw [hmore'] at hmore
  obtain ⟨next, hnext, hrest⟩ := walkOrder_cursorBehind listing.ranked
    (firstPage_ne_nil listing.pageLimit_pos hmore) (firstPage_front _ _ _ _ (listing.ahead cursor))
  exact ⟨next, by rw [hcursor hmore, hnext], hrest⟩

/-- **Simulation**: the client walks the rows ahead of its cursor. -/
theorem walkHistory_eq (fuel : ℕ) (cursor : HistoryCursor) :
    listing.walkHistory fuel cursor =
      (walk listing.weight listing.maxBytes listing.pageLimit listing.window fuel
        (listing.ahead cursor)).map (List.map (orient cursor.direction)) := by
  induction fuel generalizing cursor with
  | zero => rfl
  | succ fuel ih =>
    obtain ⟨hrows, hmore, -⟩ := listing.serveHistory_eq cursor
    rw [walkHistory, walk]
    by_cases hyes : (listing.serveHistory cursor).hasMore = true
    · obtain ⟨next, hnext, hdirection, hahead⟩ := listing.nextCursor_eq hyes
      rw [if_pos hyes, if_pos (hmore ▸ hyes), hnext, Option.bind_some, ih next, hdirection, hahead,
        hrows, Option.map_map, Option.map_map]
      rfl
    · rw [if_neg hyes, if_neg (by rw [← hmore]; exact hyes), hrows]
      rfl

end HistoryListing

theorem assemblePages_orient (pages : List (List MessageRow)) :
    assemblePages direction (pages.map (orient direction)) = orient direction pages.flatten := by
  cases direction
  · show (pages.map fun page => page).flatten = pages.flatten
    rw [map_id']
  · show (pages.map List.reverse).reverse.flatten = pages.flatten.reverse
    rw [reverse_flatten]

theorem orient_inj {l l' : List MessageRow} :
    orient direction l = orient direction l' ↔ l = l' := by
  constructor
  · intro h
    rw [← orient_orient direction l, h, orient_orient]
  · exact congrArg (orient direction)

/-! ## Exactness -/

namespace HistoryListing

variable (listing : HistoryListing)

/-- History paging from a cursor: every page that announces more moves on, and following the
    cursors ends with the rows beyond the first one, each once and in order. -/
def PagesExactly (cursor : HistoryCursor) : Prop :=
  (∀ cursor, (listing.serveHistory cursor).hasMore = true →
    (listing.serveHistory cursor).rows ≠ [] ∧
      ∃ next, (listing.serveHistory cursor).nextCursor = some next ∧
        next.direction = cursor.direction ∧
        (rowsBeyond listing.scope listing.rows next).length <
          (rowsBeyond listing.scope listing.rows cursor).length) ∧
    ∃ pages, listing.walkHistory ((rowsBeyond listing.scope listing.rows cursor).length + 1)
        cursor = some pages ∧
      assemblePages cursor.direction pages = rowsBeyond listing.scope listing.rows cursor

theorem length_ahead (cursor : HistoryCursor) :
    (listing.ahead cursor).length = (rowsBeyond listing.scope listing.rows cursor).length :=
  length_orient _ _

/-- **Progress**. -/
theorem progress {cursor : HistoryCursor}
    (hmore : (listing.serveHistory cursor).hasMore = true) :
    (listing.serveHistory cursor).rows ≠ [] ∧
      ∃ next, (listing.serveHistory cursor).nextCursor = some next ∧
        next.direction = cursor.direction ∧
        (rowsBeyond listing.scope listing.rows next).length <
          (rowsBeyond listing.scope listing.rows cursor).length := by
  obtain ⟨hrows, hmore', -⟩ := listing.serveHistory_eq cursor
  obtain ⟨next, hnext, hdirection, hahead⟩ := listing.nextCursor_eq hmore
  have hne := firstPage_ne_nil listing.pageLimit_pos (hmore' ▸ hmore)
  have hstart := firstPage_front listing.weight listing.maxBytes listing.pageLimit
    listing.window (listing.ahead cursor)
  refine ⟨?_, next, hnext, hdirection, ?_⟩
  · rw [hrows, ← length_pos_iff, length_orient]
    exact length_pos_iff.mpr hne
  · rw [← length_ahead, ← length_ahead, hahead, length_drop]
    have hpos := length_pos_iff.mpr hne
    have hle := hstart.length_le
    omega

theorem pagesExactly_iff (cursor : HistoryCursor) :
    listing.PagesExactly cursor ↔
      ∃ pages, walk listing.weight listing.maxBytes listing.pageLimit listing.window
          ((listing.ahead cursor).length + 1) (listing.ahead cursor) = some pages ∧
        pages.flatten = listing.ahead cursor := by
  unfold PagesExactly
  rw [and_iff_right (fun _ => listing.progress), ← length_ahead, walkHistory_eq]
  constructor
  · rintro ⟨_, hwalk, hexact⟩
    obtain ⟨pages, hpages, rfl⟩ := Option.map_eq_some_iff.mp hwalk
    rw [assemblePages_orient] at hexact
    refine ⟨pages, hpages, ?_⟩
    rw [← orient_inj cursor.direction, hexact]
    exact (orient_orient _ _).symm
  · rintro ⟨pages, hpages, hexact⟩
    refine ⟨_, by rw [hpages]; rfl, ?_⟩
    rw [assemblePages_orient, hexact]
    exact orient_orient _ _

/-- The lookahead row fits what the store returns. -/
def LooksAhead : Prop := listing.pageLimit < listing.scope.maxLimit

instance : Decidable listing.LooksAhead := inferInstanceAs (Decidable (_ < _))

theorem window_eq_of_looksAhead (h : listing.LooksAhead) :
    listing.window = listing.pageLimit + 1 := by
  unfold LooksAhead at h
  simp only [window, MessageLog.cleanLimit]
  omega

theorem window_eq_of_not_looksAhead (h : ¬ listing.LooksAhead) :
    listing.window = channelHistoryMaxLimit ∧ channelHistoryMaxLimit ≤ listing.pageLimit := by
  have hlimit : listing.pageLimit ≤ channelHistoryMaxLimit := by
    unfold pageLimit parseHistoryLimit
    split
    · decide
    · exact max_le (by decide) (min_le_left _ _)
  unfold LooksAhead at h
  unfold window
  cases hscope : listing.scope with
  | channel threadId =>
    rw [hscope] at h
    simp only [HistoryScope.maxLimit, MessageLog.cleanLimit, channelHistoryMaxLimit] at *
    omega
  | thread rootMessageId =>
    rw [hscope] at h
    simp only [HistoryScope.maxLimit] at h
    omega

theorem pagesExactly_of_looksAhead (h : listing.LooksAhead) (cursor : HistoryCursor) :
    listing.PagesExactly cursor := by
  rw [pagesExactly_iff]
  obtain ⟨pages, hpages⟩ := walk_eq_some listing.weight listing.maxBytes
    listing.window listing.pageLimit_pos (Nat.lt_succ_self (listing.ahead cursor).length)
  refine ⟨pages, hpages, walk_exact_of_lookahead ?_ hpages⟩
  rw [listing.window_eq_of_looksAhead h]
  exact Nat.lt_succ_self _

/-- Without a lookahead row only the byte budget tells that rows are left. -/
theorem pagesExactly_iff_of_not_looksAhead (h : ¬ listing.LooksAhead) (cursor : HistoryCursor) :
    listing.PagesExactly cursor ↔
      GroupsFit channelHistoryMaxLimit
        (byteGroups listing.weight listing.maxBytes (listing.ahead cursor)) := by
  obtain ⟨hwindow, hlimit⟩ := listing.window_eq_of_not_looksAhead h
  obtain ⟨pages, hpages⟩ := walk_eq_some listing.weight listing.maxBytes
    listing.window listing.pageLimit_pos (Nat.lt_succ_self (listing.ahead cursor).length)
  rw [pagesExactly_iff, ← hwindow, ← walk_exact_iff (hwindow ▸ hlimit) hpages]
  constructor
  · rintro ⟨pages', hpages', hexact⟩
    obtain rfl := Option.some.inj (hpages.symm.trans hpages')
    exact hexact
  · exact fun hexact => ⟨pages, hpages, hexact⟩

/-- What history paging needs: the lookahead row, or a byte budget that alone cuts every page but
    the last below 200 rows and leaves at most 200 for the last. -/
def CutInTime (cursor : HistoryCursor) : Prop :=
  listing.LooksAhead ∨
    GroupsFit channelHistoryMaxLimit
      (byteGroups listing.weight listing.maxBytes (listing.ahead cursor))

theorem pagesExactly_iff_cutInTime (cursor : HistoryCursor) :
    listing.PagesExactly cursor ↔ listing.CutInTime cursor := by
  unfold CutInTime
  by_cases h : listing.LooksAhead
  · exact iff_of_true (listing.pagesExactly_of_looksAhead h cursor) (.inl h)
  · rw [listing.pagesExactly_iff_of_not_looksAhead h, or_iff_right h]

/-- **History paging** is exact when the lookahead row is read; where it is not, for pages of 200
    rows of a channel, exactly when the byte budget alone cuts every page but the last below 200
    rows and leaves at most 200 for the last. -/
theorem history_exact_iff (cursor : HistoryCursor) :
    listing.PagesExactly cursor ↔
      listing.LooksAhead ∨
        GroupsFit channelHistoryMaxLimit
          (byteGroups listing.weight listing.maxBytes (listing.ahead cursor)) :=
  listing.pagesExactly_iff_cutInTime cursor

/-- The history of a channel of a store. -/
def ofStore {s : MessageStore} (h : SequenceLog s) (channelId : String) (scope : HistoryScope)
    (limit : Option ℕ) (size : MessageRow → ℕ) (maxBytes : ℕ) : HistoryListing where
  scope := scope
  limit := limit
  size := size
  maxBytes := maxBytes
  rows := s.channelRows channelId
  ranked := by
    apply pairwise_map.mp
    rw [h.seqs channelId]
    exact pairwise_lt_range'

/-- The same of the history of every channel, after any calls of the store. -/
theorem ofStore_pagesExactly_iff (ops : List MessageOp) (channelId : String)
    (scope : HistoryScope) (limit : Option ℕ) (size : MessageRow → ℕ) (maxBytes : ℕ)
    (cursor : HistoryCursor) :
    let listing := ofStore (MessageStore.sequenceLog_exec ops) channelId scope limit size maxBytes
    listing.PagesExactly cursor ↔ listing.CutInTime cursor :=
  (ofStore _ channelId scope limit size maxBytes).pagesExactly_iff_cutInTime cursor

end HistoryListing

private def oneLine (seq : ℕ) : MessageRow where
  id := s!"chm:{seq}"
  seq := seq
  kind := .message
  status := .terminal .complete
  sender := ⟨.human, "operator"⟩
  text := "ping"
  mentions := []
  parts := []
  sourceRuntimeId := none
  agentDetail := none
  agentDetailTerminalAuthority := none
  truncationReason := none
  truncated := false
  editedAt := none
  deletedAt := none
  updatedAt := 0
  completedAt := none
  channelId := "relay"
  threadId := none
  parentMessageId := none
  sourceTurnId := none
  sourceItemId := none
  clientMessageId := none
  createdAt := 0

/-- The messages of a channel of 201 lines, in pages of 200. -/
private def longChannel : HistoryListing where
  scope := .channel none
  limit := some 200
  size := fun _ => 1000
  maxBytes := 4 * 1024 * 1024
  rows := (List.range' 1 201).map oneLine
  ranked := by
    show List.Pairwise _ _
    rw [pairwise_map]
    exact pairwise_lt_range'

/-- The oldest of 201 messages is never listed: the page of the 200 newest announces no more. -/
theorem history_loses_oldest :
    ¬ ∀ (listing : HistoryListing) (cursor : HistoryCursor), listing.PagesExactly cursor := by
  intro h
  have hpages := h longChannel {}
  have hahead : (longChannel.ahead {}).length = 201 := by
    rw [HistoryListing.length_ahead]
    show ((longChannel.rows.filter fun _ => true)).length = 201
    rw [filter_true]
    show ((List.range' 1 201).map oneLine).length = 201
    rw [length_map, length_range']
  have hne : longChannel.ahead {} ≠ [] := by
    decide
  rw [longChannel.pagesExactly_iff_of_not_looksAhead (by decide), byteGroups_of_le hne] at hpages
  · -- one group of 201 rows
    have hle : (longChannel.ahead {}).length ≤ 200 := hpages
    omega
  · have hweight : (longChannel.ahead {}).map longChannel.weight = List.replicate 201 1001 := by
      rw [← hahead, eq_replicate_iff]
      refine ⟨length_map _, fun n hn => ?_⟩
      obtain ⟨m, -, rfl⟩ := mem_map.mp hn
      rfl
    rw [hweight, sum_replicate]
    decide

end RelayIde.Channel
