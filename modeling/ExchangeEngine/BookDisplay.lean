import ExchangeEngine.Lib.Depth
import ExchangeEngine.Lib.TextStream
import ExchangeEngine.BestPrices

/-!
# The Order Book as a Table

`PrintOrderbook` walks down both sides at once and prints one row for each price. What it takes for
the order of the rows is that no bid reaches an ask: the iterator over the asks waits until the bids
have gone by, so that the bids are printed first, from the best one, and the asks after them.

`Orderbook.displayed` are the iterators and the rows when the loop is left, and `printOrderbook` is
the text.

## Main results

* `orderbook_shown`: in every state of a run the loop is left, the rows are the depth of the book,
  price by price and modulo `2 ^ 32`, and nothing but them is needed to print the same text.
-/

open PriceTime TextStream

namespace ExchangeEngine

/-! ### Printing -/

/-- A row of the table. -/
structure DisplayRow where
  price : Price
  bidQty : Quantity
  askQty : Quantity
  deriving DecidableEq, Repr

/-- What the loop of `PrintOrderbook` reads and writes: what is left of either side from its
iterator on, and the rows printed so far. -/
structure DisplayState where
  bids : Levels
  asks : Levels
  rows : List DisplayRow
  deriving DecidableEq, Repr

namespace Orderbook

/-- Price and bid quantity of a row, before the asks are looked at. -/
def bidEntry (heap : Heap) : Levels → Price × Quantity
  | [] => (0, 0)
  | (price, level) :: _ => (price, levelQuantity heap level)

/-- Price and ask quantity of a row, given the price on the side of the bids: the asks come in if
there are no more bids, or if they are not above the price. -/
def askEntry (heap : Heap) (bidsEnd : Bool) (price : Price) : Levels → Price × Quantity
  | [] => (price, 0)
  | (askPrice, level) :: _ =>
      if bidsEnd = true ∨ askPrice ≤ price then (askPrice, levelQuantity heap level) else (price, 0)

/-- An iterator is advanced if it is at the price of the row. -/
def advance (price : Price) : Levels → Levels
  | [] => []
  | l :: levels => if l.1 = price then levels else l :: levels

/-- The body of the loop of `PrintOrderbook`, from loop head to loop head; `none` when the loop is
left. -/
def displayTurn (heap : Heap) (s : DisplayState) : Option DisplayState :=
  if s.bids = [] ∧ s.asks = [] then none
  else
    let bid := bidEntry heap s.bids
    let ask := askEntry heap (decide (s.bids = [])) bid.1 s.asks
    some
      { bids := advance ask.1 s.bids
        asks := advance ask.1 s.asks
        rows := s.rows ++ [⟨ask.1, bid.2, ask.2⟩] }

/-- The state in which the loop is left: no iterator is advanced more often than its side has
levels. -/
def displayed (b : Orderbook) : DisplayState :=
  WhileLoop.run (displayTurn b.heap) (b.bids.entries.length + b.asks.entries.length + 1)
    ⟨b.bids.entries, b.asks.entries, []⟩

end Orderbook

/-- A value printed after `std::setw(8)`. -/
def setw8 (s : List Char) : List Char :=
  List.replicate (8 - s.length) ' ' ++ s

/-- The text of a row, without the end of the line. -/
def DisplayRow.text (row : DisplayRow) : List Char :=
  setw8 (printInt row.price.toInt) ++ "   ".toList ++ setw8 (Nat.toDigits 10 row.bidQty.toNat) ++
    " | ".toList ++ setw8 (Nat.toDigits 10 row.askQty.toNat)

/-- The text of a list of rows. -/
def rowsText (rows : List DisplayRow) : List Char :=
  rows.flatMap fun row => row.text ++ ['\n']

/-- `PrintOrderbook`: three lines of headings, a row for each price, and a line at the end. -/
def Orderbook.printOrderbook (b : Orderbook) : List Char :=
  "================ ORDERBOOK ================\n".toList ++
    ("   Price       BidQty | AskQty\n".toList ++
      ("-------------------------------------------\n".toList ++
        (rowsText b.displayed.rows ++ "===========================================\n".toList)))

/-! ### The rows -/

/-- The row of a bid level. -/
def DisplayRow.ofBid (level : Price × ℕ) : DisplayRow :=
  ⟨level.1, UInt32.ofNat level.2, 0⟩

/-- The row of an ask level. -/
def DisplayRow.ofAsk (level : Price × ℕ) : DisplayRow :=
  ⟨level.1, 0, UInt32.ofNat level.2⟩

/-- Prices and total quantities of some levels. -/
def levelTotals (heap : Heap) (levels : Levels) : List (Price × ℕ) :=
  levels.map fun l => (l.1, quantitySum heap l.2)

theorem levelQuantity_eq (heap : Heap) (ps : OrderPointers) :
    Orderbook.levelQuantity heap ps = UInt32.ofNat (quantitySum heap ps) := by
  rw [← UInt32.toNat_inj, toNat_levelQuantity, UInt32.toNat_ofNat']

namespace Orderbook

section Loop

variable {heap : Heap} {bids asks : Levels} {rows : List DisplayRow}

/-- A turn at which an ask is below the bid or there is no bid. -/
theorem displayTurn_ask {a : Price × OrderPointers} :
    displayTurn heap ⟨[], a :: asks, rows⟩ =
      some ⟨[], asks, rows ++ [.ofAsk (a.1, quantitySum heap a.2)]⟩ := by
  simp [displayTurn, bidEntry, askEntry, advance, DisplayRow.ofAsk, levelQuantity_eq]

/-- A turn at a bid below all asks. -/
theorem displayTurn_bid {b : Price × OrderPointers} (hasks : ∀ a ∈ asks, b.1 < a.1) :
    displayTurn heap ⟨b :: bids, asks, rows⟩ =
      some ⟨bids, asks, rows ++ [.ofBid (b.1, quantitySum heap b.2)]⟩ := by
  cases asks with
  | nil => simp [displayTurn, bidEntry, askEntry, advance, DisplayRow.ofBid, levelQuantity_eq]
  | cons a asks =>
      have hlt := hasks a List.mem_cons_self
      have hnot : ¬ a.1 ≤ b.1 := Int32.not_le.mpr hlt
      have hne : a.1 ≠ b.1 := fun heq => hnot (heq ▸ Int32.le_refl _)
      simp [displayTurn, bidEntry, askEntry, advance, DisplayRow.ofBid, levelQuantity_eq, hnot, hne]

/-- **The loop on sides that do not cross** prints the bids and then the asks. -/
theorem run_displayTurn (hlt : ∀ b ∈ bids, ∀ a ∈ asks, b.1 < a.1) {n : ℕ}
    (hn : bids.length + asks.length ≤ n) :
    WhileLoop.run (displayTurn heap) n ⟨bids, asks, rows⟩ =
      ⟨[], [], rows ++ ((levelTotals heap bids).map .ofBid ++
        (levelTotals heap asks).map .ofAsk)⟩ := by
  induction n generalizing bids asks rows with
  | zero =>
      obtain rfl := List.length_eq_zero_iff.mp (by omega : bids.length = 0)
      obtain rfl := List.length_eq_zero_iff.mp (by omega : asks.length = 0)
      simp [WhileLoop.run, levelTotals]
  | succ n ih =>
      cases bids with
      | cons b bids =>
          have hturn : displayTurn heap ⟨b :: bids, asks, rows⟩ = _ :=
            displayTurn_bid fun a ha => hlt b List.mem_cons_self a ha
          have hrest : WhileLoop.run (displayTurn heap) n
              ⟨bids, asks, rows ++ [.ofBid (b.1, quantitySum heap b.2)]⟩ = _ :=
            ih (fun x hx => hlt x (List.mem_cons_of_mem b hx))
              (by simp only [List.length_cons] at hn; omega)
          simp only [WhileLoop.run, hturn, hrest, levelTotals, List.map_cons, List.cons_append,
            List.append_assoc, List.nil_append]
      | nil =>
          cases asks with
          | nil => simp [WhileLoop.run, displayTurn, levelTotals]
          | cons a asks =>
              have hrest : WhileLoop.run (displayTurn heap) n
                  ⟨[], asks, rows ++ [.ofAsk (a.1, quantitySum heap a.2)]⟩ = _ :=
                ih (fun x hx => absurd hx List.not_mem_nil)
                  (by simp only [List.length_cons, List.length_nil] at hn ⊢; omega)
              simp only [WhileLoop.run, displayTurn_ask, hrest, levelTotals, List.map_nil,
                List.map_cons, List.nil_append, List.append_assoc, List.cons_append]

/-- Every turn advances an iterator, whatever the book is like. -/
theorem displayTurn_decreases {s s' : DisplayState} (h : displayTurn heap s = some s') :
    s'.bids.length + s'.asks.length < s.bids.length + s.asks.length := by
  have hadvance : ∀ price levels, (advance price levels).length ≤ levels.length := by
    intro price levels
    cases levels with
    | nil => exact Nat.le_refl 0
    | cons l levels =>
        simp only [advance]
        split <;> simp
  have hat : ∀ (l : Price × OrderPointers) levels,
      (advance l.1 (l :: levels)).length < (l :: levels).length := by
    intro l levels
    simp [advance]
  obtain ⟨bids, asks, rows⟩ := s
  simp only [displayTurn] at h
  split at h
  · cases h
  rename_i hsome
  obtain rfl := Option.some.inj h
  simp only
  cases asks with
  | nil =>
      cases bids with
      | nil => exact absurd ⟨rfl, rfl⟩ hsome
      | cons b bids => exact Nat.add_lt_add_right (hat b bids) _
  | cons a asks =>
      simp only [askEntry]
      split
      · exact Nat.add_lt_add_of_le_of_lt (hadvance _ _) (hat a asks)
      · rename_i hask
        cases bids with
        | nil => exact absurd (Or.inl (decide_eq_true rfl)) hask
        | cons b bids => exact Nat.add_lt_add_of_lt_of_le (hat b bids) (hadvance _ _)

/-- **The loop of `PrintOrderbook` is left**, on every book. -/
theorem displayTurn_displayed (b : Orderbook) : displayTurn b.heap b.displayed = none :=
  WhileLoop.turn_run_eq_none (P := fun _ => True) (fun _ _ _ _ => trivial)
    (μ := fun s : DisplayState => s.bids.length + s.asks.length)
    (fun _ _ _ h => displayTurn_decreases h) _ trivial (Nat.lt_succ_self _)

end Loop

/-- **The totals of the levels are the depth of the side**, in a well-formed book. -/
theorem Wf.levelTotals_eq {b : Orderbook} (h : b.Wf) (s : Side) :
    levelTotals b.heap (b.levels s) = profile (b.view.side s) := by
  have hside : b.view.side s = offers b.heap (b.levels s) := by cases s <;> rfl
  have hsum : ∀ ps, ((offersAt b.heap ps).map Offer.qty).sum = quantitySum b.heap ps := by
    intro ps
    rw [offersAt, List.map_map]
    rfl
  have hwf := h.levelsWf s
  have hne := h.noEmptyLevel s
  have hsorted := b.sorted_levels s
  rw [hside]
  generalize b.levels s = levels at hwf hne hsorted
  induction levels with
  | nil => rfl
  | cons l levels ih =>
      obtain ⟨hl, hwf⟩ := levelsWf_cons.mp hwf
      obtain ⟨hnonempty, hne⟩ := noEmptyLevel_cons.mp hne
      obtain ⟨hbefore, hsorted⟩ := List.pairwise_cons.mp hsorted
      have hfirst : ∀ o ∈ offersAt b.heap l.2, o.price = l.1 := by
        intro o ho
        obtain ⟨p, hp, rfl⟩ := mem_offersAt.mp ho
        exact (hl p hp).price_eq
      have hlater : ∀ o ∈ offers b.heap levels, o.price ≠ l.1 := by
        rintro o ho heq
        obtain ⟨p, hp, rfl⟩ := mem_offersAt.mp ho
        obtain ⟨l', hl', hprice⟩ := hwf.exists_key hp
        have hbetter := hbefore l' hl'
        rw [← show (b.heap.read p).price = l'.1 from hprice,
          show (b.heap.read p).price = l.1 from heq] at hbetter
        cases s with
        | bid => exact Int32.lt_irrefl hbetter
        | ask => exact Int32.lt_irrefl hbetter
      have hsplit : offers b.heap (l :: levels) = offersAt b.heap l.2 ++ offers b.heap levels := by
        rw [offers, pointers_cons, offersAt_append]
        rfl
      rw [hsplit, profile_append (by simpa [offersAt] using hnonempty) hfirst hlater, hsum,
        ← ih hwf hne hsorted]
      rfl

/-- **The rows of a well-formed book that is not crossed** are the depth of its sides. -/
theorem Wf.rows_displayed {b : Orderbook} (h : b.Wf) (hunc : b.view.Uncrossed) :
    b.displayed.rows = (profile b.view.bids).map .ofBid ++ (profile b.view.asks).map .ofAsk := by
  have hlt : ∀ x ∈ b.bids.entries, ∀ y ∈ b.asks.entries, x.1 < y.1 := by
    intro x hx y hy
    obtain ⟨o, ho, hox⟩ :=
      exists_offer_of_level h.bids h.bids_noEmpty (List.mem_map_of_mem (f := Prod.fst) hx)
    obtain ⟨o', ho', hoy⟩ :=
      exists_offer_of_level h.asks h.asks_noEmpty (List.mem_map_of_mem (f := Prod.fst) hy)
    rw [← hox, ← hoy]
    exact hunc o ho o' ho'
  have hbids := h.levelTotals_eq .bid
  have hasks := h.levelTotals_eq .ask
  simp only [levels, Book.side] at hbids hasks
  rw [displayed, run_displayTurn hlt (Nat.le_succ _), hbids, hasks]
  rfl

end Orderbook

/-! ### The text -/

/-- A row is read back from its text, which is followed by the end of the line. -/
def readRow (s : List Char) : Option (DisplayRow × List Char) := do
  let (price, s) ← signed? 32 s
  let (bidQty, s) ← unsigned? 32 s
  let (_, s) ← word? s
  let (askQty, s) ← unsigned? 32 s
  return (⟨.ofInt price, .ofNat bidQty, .ofNat askQty⟩, s)

/-- The filling of a value is passed over by whatever passes over a space. -/
theorem read_setw8 {α : Type*} {read : List Char → α} (hspace : ∀ s, read (' ' :: s) = read s)
    (s rest : List Char) : read (setw8 s ++ rest) = read (s ++ rest) := by
  have hskip : ∀ n s, read (List.replicate n ' ' ++ s) = read s := by
    intro n s
    induction n with
    | zero => rfl
    | succ n ih => exact (hspace _).trans ih
  rw [setw8, List.append_assoc, hskip]

theorem unsigned?_setw8 {q : Quantity} {rest : List Char} (hrest : Delimits rest) :
    unsigned? 32 (setw8 (Nat.toDigits 10 q.toNat) ++ rest) = some (q.toNat, rest) :=
  (read_setw8 (unsigned?_space 32) _ rest).trans (unsigned?_append (UInt32.toNat_lt q) hrest)

theorem signed?_setw8 {p : Price} {rest : List Char} (hrest : Delimits rest) :
    signed? 32 (setw8 (printInt p.toInt) ++ rest) = some (p.toInt, rest) :=
  (read_setw8 (signed?_space 32) _ rest).trans
    (signed?_append (Int32.le_toInt p) (Int32.toInt_lt p) hrest)

theorem readRow_text (row : DisplayRow) (rest : List Char) :
    readRow (row.text ++ '\n' :: rest) = some (row, '\n' :: rest) := by
  have hend : Delimits ('\n' :: rest) := by
    rintro c hc
    obtain rfl := Option.some.inj hc
    rfl
  have hprice : ∀ s, signed? 32 (setw8 (printInt row.price.toInt) ++ ("   ".toList ++ s)) =
      some (row.price.toInt, "   ".toList ++ s) :=
    fun s => @signed?_setw8 row.price ("   ".toList ++ s) (delimits_space _)
  have hbid : ∀ s, unsigned? 32 ("   ".toList ++
      (setw8 (Nat.toDigits 10 row.bidQty.toNat) ++ (" | ".toList ++ s))) =
      some (row.bidQty.toNat, " | ".toList ++ s) :=
    fun s => @unsigned?_setw8 row.bidQty (" | ".toList ++ s) (delimits_space _)
  have hbar : ∀ s, word? (" | ".toList ++ s) = some (['|'], ' ' :: s) := fun s => rfl
  have hask := (unsigned?_space 32 _).trans (@unsigned?_setw8 row.askQty ('\n' :: rest) hend)
  simp only [DisplayRow.text, List.append_assoc, readRow, hprice, hbid, hbar, hask,
    Option.bind_eq_bind, Option.bind_some, Int32.ofInt_toInt, UInt32.ofNat_toNat]
  rfl

/-- **The rows are determined by their text** in front of anything that is no row. -/
theorem rowsText_inj {rows rows' : List DisplayRow} {rest : List Char} (hrest : readRow rest = none)
    (h : rowsText rows ++ rest = rowsText rows' ++ rest) : rows = rows' := by
  have hcons : ∀ row rows, rowsText (row :: rows) ++ rest =
      row.text ++ '\n' :: (rowsText rows ++ rest) := by
    intro row rows
    simp [rowsText]
  induction rows generalizing rows' with
  | nil =>
      cases rows' with
      | nil => rfl
      | cons row' rows' =>
          rw [hcons, show rowsText [] ++ rest = rest from rfl] at h
          rw [h, readRow_text] at hrest
          cases hrest
  | cons row rows ih =>
      cases rows' with
      | nil =>
          rw [hcons, show rowsText [] ++ rest = rest from rfl] at h
          rw [← h, readRow_text] at hrest
          cases hrest
      | cons row' rows' =>
          rw [hcons, hcons] at h
          have hread := congrArg readRow h
          rw [readRow_text, readRow_text] at hread
          obtain ⟨rfl, hsame⟩ := Prod.mk.inj (Option.some.inj hread)
          rw [ih (List.cons.inj hsame).2]

/-- **What is printed determines the rows.** -/
theorem rows_of_printOrderbook {b b' : Orderbook} (h : b'.printOrderbook = b.printOrderbook) :
    b'.displayed.rows = b.displayed.rows := by
  have hrows := List.append_cancel_left (List.append_cancel_left (List.append_cancel_left h))
  exact rowsText_inj (by decide) hrows

/-- **The order book is shown as it is.** In every state of a run the loop of `PrintOrderbook` is
left with one row for each price at which something rests, the bids first and both sides from their
best price on, each with the quantity that rests there modulo `2 ^ 32`; and no other rows are
printed as the same text. -/
theorem orderbook_shown (symbol : List UInt8) (clock : ℕ → Timestamp) (past : List Input)
    (h : acceptedCount past < 2 ^ 64) :
    let b := (run symbol clock past).orderbook
    Orderbook.displayTurn b.heap b.displayed = none ∧
      b.displayed.rows =
        (profile b.view.bids).map .ofBid ++ (profile b.view.asks).map .ofAsk ∧
      ∀ b' : Orderbook, b'.printOrderbook = b.printOrderbook →
        b'.displayed.rows = b.displayed.rows := by
  intro b
  obtain ⟨hwf, -, hunc, -⟩ := (run_inv symbol clock past h).book
  exact ⟨b.displayTurn_displayed, hwf.rows_displayed hunc, fun _ => rows_of_printOrderbook⟩

theorem orderbook_shown_twoSidedRun :
    let b := (run [] (fun _ => 0) twoSidedRun).orderbook
    b.displayed.rows = (profile b.view.bids).map .ofBid ++ (profile b.view.asks).map .ofAsk :=
  (orderbook_shown [] (fun _ => 0) twoSidedRun (by decide)).2.1

end ExchangeEngine
