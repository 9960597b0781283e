import ExchangeEngine.MatchLoops

/-!
# Matching on a Well-Formed Book

On a well-formed book the sweep along the levels is the sweep along the offers of the opposite
side, and the loops keep what makes the book well-formed: the opposite side holds resting orders of
its own, and the index holds exactly the orders of both sides.

`MatchInv` is the invariant of the loops on the heap and the index, `TurnFrame` what a turn leaves
alone, and `Moment` an execution together with the side as it stood then.
-/

open PriceTime

namespace ExchangeEngine

variable {r : Price → Price → Prop}

/-- **The invariant of the matching loops on a well-formed book** for the incoming order `o` at the
address `order`: the opposite side holds resting orders, and the index, apart from the incoming
order's own entry, holds exactly the orders of the opposite side and those of the own side,
which the loops do not touch. -/
structure MatchInv (order : OrderPointer) (o : Order) (side contraSide : BuySell)
    (own : OrderPointers) (s : MatchState r) : Prop where
  order_eq : s.heap.read order = o
  levels : LevelsWf s.heap contraSide s.contraBook.entries
  index : Indexed s.heap (s.orders.erase o.orderId) (pointers s.contraBook.entries ++ own)
  cursor : CursorWf (o.accepts side) s

/-- The sweep that is still to be done in a state of the loops. -/
def MatchState.sweepLeft (o : Order) (side : BuySell) (s : MatchState r) :
    Sweep OrderId Price OrderTag :=
  sweep (o.accepts side) s.remaining.toNat (offers s.heap s.contraBook.entries)

/-- The outcome of the loops as seen from one of their states: all trades, the side that
remains, and the quantity left over. -/
def MatchState.outcome (o : Order) (side : BuySell) (s : MatchState r) :
    List Trade × List BookOffer × ℕ :=
  (s.trades ++ (s.sweepLeft o side).fills.map (tradeOf side o.orderId),
    (s.sweepLeft o side).rest, (s.sweepLeft o side).left)

/-! ### One turn -/

section Turn

variable {order p : OrderPointer} {o : Order} {side contraSide : BuySell}
  {own ps : OrderPointers} {k : Price} {es : Levels} {s s' : MatchState r}

/-- No two orders have one id, the incoming order included. -/
theorem MatchInv.loopInv (hinv : MatchInv order o side contraSide own s) :
    LoopInv order o side [] own s := by
  refine ⟨hinv.order_eq, ?_, List.nil_suffix, fun l hl => absurd hl List.not_mem_nil, hinv.cursor⟩
  rw [List.map_cons, List.nodup_cons, hinv.order_eq]
  refine ⟨fun hmem => ?_, hinv.index.nodup⟩
  obtain ⟨q, hq, hid⟩ := List.mem_map.mp hmem
  exact hinv.index.id_ne_of_erase hq hid

/-- The orders of the opposite side are offered at the prices of their levels. -/
theorem MatchInv.levelSweep_eq (hinv : MatchInv order o side contraSide own s) :
    s.levelSweep o side = s.sweepLeft o side := by
  rw [MatchState.levelSweep, MatchState.sweepLeft, hinv.levels.levelOffers_eq]

theorem MatchInv.outcome_eq (hinv : MatchInv order o side contraSide own s) :
    s.outcome o side =
      ((s.levelOutcome o side).1, (s.levelOutcome o side).2.1, (s.levelOutcome o side).2.2.1) := by
  rw [MatchState.outcome, MatchState.levelOutcome, hinv.levelSweep_eq]

/-- What the invariant says about the order at the head of the first level: it rests there,
it is not the incoming order, and the other orders are at other addresses. -/
structure AtHead (order : OrderPointer) (o : Order) (contraSide : BuySell)
    (own : OrderPointers) (s : MatchState r) (k : Price) (p : OrderPointer)
    (ps : OrderPointers) (es : Levels) : Prop where
  resting : Resting s.heap contraSide k p
  ne_order : order ≠ p
  ne : ∀ q ∈ ps ++ pointers es ++ own, q ≠ p
  index : Indexed s.heap (s.orders.erase o.orderId) (p :: (ps ++ pointers es ++ own))
  offers_eq : offers s.heap s.contraBook.entries =
    (s.heap.read p).offer :: offersAt s.heap (ps ++ pointers es)

theorem MatchInv.atHead (hinv : MatchInv order o side contraSide own s)
    (hent : s.contraBook.entries = (k, p :: ps) :: es) :
    AtHead order o contraSide own s k p ps es := by
  have hptr : pointers s.contraBook.entries ++ own = p :: (ps ++ pointers es ++ own) := by
    simp [hent]
  have hidx : Indexed s.heap (s.orders.erase o.orderId) (p :: (ps ++ pointers es ++ own)) :=
    hptr ▸ hinv.index
  have hpid : (s.heap.read p).orderId ≠ o.orderId :=
    hidx.id_ne_of_erase List.mem_cons_self
  refine ⟨?_, ?_, fun q hq heq => hidx.notMem (heq ▸ hq), hidx, ?_⟩
  · exact hinv.levels (k, p :: ps) (by simp [hent]) p List.mem_cons_self
  · rintro rfl
    exact hpid (congrArg Order.orderId hinv.order_eq)
  · simp [offers, hent]

/-- A write to the order at the head leaves the other orders of the opposite side alone. -/
theorem AtHead.levelsWf_write (hat : AtHead order o contraSide own s k p ps es)
    (hinv : MatchInv order o side contraSide own s)
    (hent : s.contraBook.entries = (k, p :: ps) :: es) (o' : Order) :
    LevelsWf (s.heap.write p o') contraSide ((k, ps) :: es) := by
  have hold : LevelsWf s.heap contraSide ((k, ps) :: es) := by
    intro l hl q hq
    rcases List.mem_cons.mp hl with rfl | hl
    · exact hinv.levels (k, p :: ps) (by simp [hent]) q (List.mem_cons_of_mem p hq)
    · exact hinv.levels l (by simp [hent, hl]) q hq
  refine hold.congr fun q hq => ObjectStore.read_write_of_ne s.heap (hat.ne q ?_) o'
  exact List.mem_append_left own hq

theorem AtHead.offersAt_write (hat : AtHead order o contraSide own s k p ps es) (o' : Order) :
    offersAt (s.heap.write p o') (ps ++ pointers es) = offersAt s.heap (ps ++ pointers es) := by
  refine offersAt_congr fun q hq => ?_
  rw [ObjectStore.read_write_of_ne s.heap (hat.ne q (List.mem_append_left own hq))]

variable [DecidableRel r] [IsStrictTotalOrder Price r]

/-- **An execution that closes the resting order** takes it out of its level and the index. -/
theorem MatchInv.fill_closed (hinv : MatchInv order o side contraSide own s)
    (hent : s.contraBook.entries = (k, p :: ps) :: es)
    (hcursor : CursorWf (o.accepts side) (s.fill order side k 0 p))
    (hfill : (s.reduced p).isFilled = true) :
    MatchInv order o side contraSide own (s.fill order side k 0 p) := by
  have hat := hinv.atHead hent
  have hid : (s.reduced p).orderId = (s.heap.read p).orderId := by rw [reduced_eq]; rfl
  have hentries := entries_erase_head hent
  rw [fill_of_filled hfill] at hcursor ⊢
  refine ⟨?_, ?_, ?_, hcursor⟩
  · rw [ObjectStore.read_write_of_ne s.heap hat.ne_order]
    exact hinv.order_eq
  · rw [hentries]
    exact hat.levelsWf_write hinv hent _
  · rw [hentries, hid, Finmap.erase_erase, pointers_cons]
    refine hat.index.erase.congr fun q hq => ?_
    rw [ObjectStore.read_write_of_ne s.heap (hat.ne q hq)]

/-- **An execution within the resting order** leaves it in its place with the reduced quantity. -/
theorem MatchInv.fill_open (hinv : MatchInv order o side contraSide own s)
    (hent : s.contraBook.entries = (k, p :: ps) :: es)
    (hcursor : CursorWf (o.accepts side) (s.fill order side k 0 p))
    (hfill : (s.reduced p).isFilled = false) :
    MatchInv order o side contraSide own (s.fill order side k 0 p) := by
  have hat := hinv.atHead hent
  have hqty : (s.reduced p).quantity ≠ 0 := by
    have hzero := Bool.eq_false_iff.mp hfill
    exact fun heq => hzero (beq_iff_eq.mpr heq)
  rw [fill_of_not_filled hfill] at hcursor ⊢
  refine ⟨?_, ?_, ?_, hcursor⟩
  · rw [ObjectStore.read_write_of_ne s.heap hat.ne_order]
    exact hinv.order_eq
  · rw [hent]
    intro l hl q hq
    have hothers := hat.levelsWf_write hinv hent ((s.reduced p).setOrderStatus .modify)
    rcases List.mem_cons.mp hl with rfl | hl
    · rcases List.mem_cons.mp hq with rfl | hq
      · refine ⟨?_, ?_, ?_, ?_, hat.resting.price_pos⟩ <;>
          simp only [ObjectStore.read_write_self]
        · rw [reduced_eq]
          exact hat.resting.buySell
        · rw [reduced_eq]
          exact hat.resting.orderType
        · exact hqty
        · rw [reduced_eq]
          exact hat.resting.price_eq
      · exact hothers (k, ps) List.mem_cons_self q hq
    · exact hothers l (List.mem_cons_of_mem _ hl) q hq
  · refine hinv.index.congr fun q _ => ?_
    by_cases hqp : q = p
    · rw [hqp, ObjectStore.read_write_self, reduced_eq]
      rfl
    · rw [ObjectStore.read_write_of_ne s.heap hqp]

/-- Leaving a level takes no order out. -/
theorem MatchInv.leaveLevel (hinv : MatchInv order o side contraSide own s) {i : ℕ}
    (hcur : s.cursor = .orders k i) (hcursor : CursorWf (o.accepts side) (s.leaveLevel k)) :
    MatchInv order o side contraSide own (s.leaveLevel k) := by
  have hwf := hinv.cursor
  simp only [CursorWf, hcur] at hwf
  obtain ⟨ps, es, hent, -, -, -⟩ := hwf
  rw [MatchState.leaveLevel, levelOrders_head hent] at hcursor ⊢
  by_cases hps : ps = []
  · rw [if_pos hps] at hcursor ⊢
    have herase : (s.contraBook.erase k).entries = es := (SortedMap.split_head hent).2.2
    have hptr : pointers es = pointers s.contraBook.entries := by
      rw [hent, pointers_cons, hps, List.nil_append]
    refine ⟨hinv.order_eq, ?_, ?_, hcursor⟩
    · rw [herase]
      exact fun l hl => hinv.levels l (by simp [hent, hl])
    · rw [herase, hptr]
      exact hinv.index
  · rw [if_neg hps] at hcursor ⊢
    exact ⟨hinv.order_eq, hinv.levels, hinv.index, hcursor⟩

/-- **Every turn keeps the invariant.** -/
theorem MatchInv.turn (hinv : MatchInv order o side contraSide own s)
    (h : matchTurn order side s = some s') : MatchInv order o side contraSide own s' := by
  have hcursor := (hinv.loopInv.turn h).inv.cursor
  rcases matchTurn_cases h with ⟨-, -, k, ps, es, hent, hk, rfl⟩ | ⟨k, i, hcur, -, rfl⟩ |
    ⟨k, i, p, hcur, hp, hrem, rfl⟩
  · exact ⟨hinv.order_eq, hinv.levels, hinv.index, hcursor⟩
  · exact hinv.leaveLevel hcur hcursor
  · obtain ⟨rfl, ps, es, hent, -⟩ := hinv.cursor.head_of_fill hcur hp hrem
    cases hfill : (s.reduced p).isFilled with
    | true => exact hinv.fill_closed hent hcursor hfill
    | false => exact hinv.fill_open hent hcursor hfill

/-- **Every turn keeps the invariant and the outcome.** -/
theorem matchTurn_spec (hinv : MatchInv order o side contraSide own s)
    (h : matchTurn order side s = some s') :
    MatchInv order o side contraSide own s' ∧ s'.outcome o side = s.outcome o side := by
  refine ⟨hinv.turn h, ?_⟩
  rw [(hinv.turn h).outcome_eq, hinv.outcome_eq, (hinv.loopInv.turn h).outcome]

/-! ### What a turn leaves alone -/

/-- A turn writes to no order but one of the opposite side; it allocates nothing, keeps the
index entry of the incoming order, and adds no order and no offer to the opposite side. -/
structure TurnFrame (o : Order) (own : OrderPointers) (s s' : MatchState r) : Prop where
  own : ∀ q ∈ own, s'.heap.read q = s.heap.read q
  next : s'.heap.next = s.heap.next
  lookup : s'.orders.lookup o.orderId = s.orders.lookup o.orderId
  sublist : (pointers s'.contraBook.entries).Sublist (pointers s.contraBook.entries)
  stamps : ((offers s'.heap s'.contraBook.entries).map Offer.stamp).Sublist
    ((offers s.heap s.contraBook.entries).map Offer.stamp)

omit [DecidableRel r] [IsStrictTotalOrder Price r] in
theorem TurnFrame.setCursor (s : MatchState r) (c : Cursor) :
    TurnFrame o own s { s with cursor := c } :=
  ⟨fun _ _ => rfl, rfl, rfl, List.Sublist.refl _, List.Sublist.refl _⟩

omit [DecidableRel r] [IsStrictTotalOrder Price r] in
theorem TurnFrame.refl (s : MatchState r) : TurnFrame o own s s :=
  TurnFrame.setCursor s s.cursor

omit [DecidableRel r] [IsStrictTotalOrder Price r] in
theorem TurnFrame.trans {s'' : MatchState r} (h : TurnFrame o own s s')
    (h' : TurnFrame o own s' s'') : TurnFrame o own s s'' :=
  ⟨fun q hq => (h'.own q hq).trans (h.own q hq), h'.next.trans h.next,
    h'.lookup.trans h.lookup, h'.sublist.trans h.sublist, h'.stamps.trans h.stamps⟩

omit [DecidableRel r] [IsStrictTotalOrder Price r] in
/-- The orders of the own side are not on the opposite side. -/
theorem MatchInv.notMem_of_own (hinv : MatchInv order o side contraSide own s) {q : OrderPointer}
    (hq : q ∈ own) : q ∉ pointers s.contraBook.entries := by
  intro hmem
  exact List.disjoint_of_nodup_append (List.Nodup.of_map _ hinv.index.nodup) hmem hq

/-- The stamps of the opposite side after an execution. -/
theorem stamps_fill (hinv : MatchInv order o side contraSide own s)
    (hent : s.contraBook.entries = (k, p :: ps) :: es) :
    ((offers (s.fill order side k 0 p).heap (s.fill order side k 0 p).contraBook.entries).map
      Offer.stamp).Sublist ((offers s.heap s.contraBook.entries).map Offer.stamp) := by
  have hat := hinv.atHead hent
  rw [hat.offers_eq]
  cases hfill : (s.reduced p).isFilled with
  | true =>
      rw [fill_of_filled hfill, entries_erase_head hent]
      simp only [offers, pointers_cons, hat.offersAt_write, List.map_cons]
      exact List.sublist_cons_self _ _
  | false =>
      have hstamp : ((s.reduced p).setOrderStatus .modify).offer.stamp =
          (s.heap.read p).offer.stamp := by
        rw [reduced_eq]
        rfl
      rw [fill_of_not_filled hfill]
      simp only [offers, hent, pointers_cons, List.cons_append, offersAt_cons,
        ObjectStore.read_write_self, hat.offersAt_write, List.map_cons, hstamp]
      exact List.Sublist.refl _

theorem matchTurn_frame (hinv : MatchInv order o side contraSide own s)
    (h : matchTurn order side s = some s') : TurnFrame o own s s' := by
  have hstep := hinv.cursor.cursorAtHead.matchStep h
  have hloop := hstep.loopFrame
  refine ⟨fun q hq => hloop.read q (hinv.notMem_of_own hq), hloop.next, ?_,
    hloop.suffix.sublist, ?_⟩
  · cases hstep with
    | @close k p ps es _ _ hent hfill =>
        have hid : o.orderId ≠ (s.reduced p).orderId := by
          rw [reduced_eq]
          exact ((hinv.atHead hent).index.id_ne_of_erase List.mem_cons_self).symm
        rw [fill_of_filled hfill]
        exact Finmap.lookup_erase_ne hid
    | step _ _ _ hfill => rw [fill_of_not_filled hfill]
    | _ => rfl
  · cases hstep with
    | enter _ _ _ => exact List.Sublist.refl _
    | erase _ _ => exact ((hloop.suffix.sublist).map _).map _
    | keep _ _ _ _ => exact List.Sublist.refl _
    | close _ _ hent _ => exact stamps_fill hinv hent
    | step _ _ hent _ => exact stamps_fill hinv hent

/-! ### The loops as a whole -/

/-- **What `matchAgainst` does**: it records the fills of the sweep as trades, leaves the
rest of the sweep on the opposite side, and ends with the demand left over. -/
structure MatchOutcome (order : OrderPointer) (o : Order) (side contraSide : BuySell)
    (own : OrderPointers) (s s' : MatchState r) : Prop where
  inv : MatchInv order o side contraSide own s'
  noEmpty : NoEmptyLevel s'.contraBook.entries
  frame : TurnFrame o own s s'
  trades : s'.trades = s.trades ++ (s.sweepLeft o side).fills.map (tradeOf side o.orderId)
  offers : offers s'.heap s'.contraBook.entries = (s.sweepLeft o side).rest
  remaining : s'.remaining.toNat = (s.sweepLeft o side).left

theorem matchAgainst_spec (hinv : MatchInv order o side contraSide own s)
    (hcur : s.cursor = .levels) :
    MatchOutcome order o side contraSide own s (matchAgainst order side s) := by
  have hkept : MatchInv order o side contraSide own (matchAgainst order side s) ∧
      TurnFrame o own s (matchAgainst order side s) := by
    refine WhileLoop.run_invariant (P := fun t => MatchInv order o side contraSide own t ∧
      TurnFrame o own s t) ?_ _ ⟨hinv, TurnFrame.refl s⟩
    rintro t t' ⟨ht, hst⟩ h
    exact ⟨ht.turn h, hst.trans (matchTurn_frame ht h)⟩
  have hloop := hinv.loopInv.loopOutcome hcur
  have hsweep := hinv.levelSweep_eq
  refine ⟨hkept.1, hloop.noEmpty, hkept.2, ?_, ?_, ?_⟩
  · rw [hloop.trades, hsweep]
  · rw [← hkept.1.levels.levelOffers_eq, hloop.offers, hsweep]
  · rw [hloop.remaining, hsweep]

/-! ### The moments of execution -/

end Turn

/-- The moment of an execution: its trade, the quantity the incoming order had left before
it, the resting order as it stood before it, and all orders that rested on its side then, in
the order of the levels and their lists. -/
structure Moment where
  trade : Trade
  remaining : Quantity
  resting : Order
  side : List Order

section Moments

variable (order : OrderPointer) (side : BuySell)

/-- The execution that the turn taken from a state makes, if it makes one. -/
def MatchState.moment? (s : MatchState r) : Option Moment :=
  match s.cursor with
  | .levels => none
  | .orders restingPrice i =>
      match (s.levelOrders restingPrice)[i]? with
      | none => none
      | some restingOrder =>
          if s.remaining = 0 then none
          else
            some
              { trade := s.trade order side restingPrice restingOrder
                remaining := s.remaining
                resting := s.heap.read restingOrder
                side := (pointers s.contraBook.entries).map s.heap.read }

/-- The executions of `matchAgainst`, in order. -/
def matchMoments [DecidableRel r] [IsStrictTotalOrder Price r] (s : MatchState r) :
    List Moment :=
  (WhileLoop.visited (matchTurn order side) (matchBudget s) s).flatMap fun t =>
    (t.moment? order side).toList

/-- What is true of the execution `m` of an incoming order `o` against a side that offered
`L` when the loops started: its counterparty was the first order of its side. -/
structure MomentWf (o : Order) (side contraSide : BuySell) (L : List BookOffer)
    (m : Moment) : Prop where
  head : m.side.head? = some m.resting
  stamps : ((m.side.map Order.offer).map Offer.stamp).Sublist (L.map Offer.stamp)
  sides : ∀ o' ∈ m.side, o'.buySell = contraSide
  ne : m.resting.orderId ≠ o.orderId
  price : m.trade.price = m.resting.price
  accepts : o.accepts side m.trade.price = true
  positive : 0 < m.trade.quantity
  le_remaining : m.trade.quantity ≤ m.remaining
  le_resting : m.trade.quantity ≤ m.resting.quantity
  buyOrderId : m.trade.buyOrderId = if side = .buy then o.orderId else m.resting.orderId
  sellOrderId : m.trade.sellOrderId = if side = .sell then o.orderId else m.resting.orderId

variable [DecidableRel r] [IsStrictTotalOrder Price r]
variable {order side} {o : Order} {contraSide : BuySell} {own : OrderPointers}
  {s s' : MatchState r}

/-- The trades that the loops record are those of their moments. -/
theorem trades_matchAgainst (s : MatchState r) :
    (matchAgainst order side s).trades =
      s.trades ++ (matchMoments order side s).map Moment.trade := by
  have happ : ∀ t t' : MatchState r, matchTurn order side t = some t' →
      t'.trades = t.trades ++ (t.moment? order side).toList.map Moment.trade := by
    intro t t' h
    rcases matchTurn_cases h with ⟨hcur, -, k, -, -, -, -, rfl⟩ | ⟨k, i, hcur, hend, rfl⟩ |
      ⟨k, i, p, hcur, hp, hrem, rfl⟩
    · simp [MatchState.moment?, hcur]
    · have hnone : t.moment? order side = none := by
        simp only [MatchState.moment?, hcur]
        rcases hend with hp | hrem
        · rw [hp]
        · split
          · rfl
          · rw [if_pos hrem]
      have htrades : (t.leaveLevel k).trades = t.trades := by
        rw [MatchState.leaveLevel]
        split <;> rfl
      simp [hnone, htrades]
    · rw [trades_fill]
      simp [MatchState.moment?, hcur, hp, hrem]
  rw [matchMoments, List.map_flatMap]
  exact WhileLoop.run_appends happ _ s

/-- **Every execution hits the first order of the opposite side**, at that order's price. -/
theorem momentWf_of_mem (hinv : MatchInv order o side contraSide own s) :
    ∀ m ∈ matchMoments order side s,
      MomentWf o side contraSide (offers s.heap s.contraBook.entries) m := by
  intro m hm
  obtain ⟨t, ht, hmt⟩ := List.mem_flatMap.mp hm
  have hturn : ∀ t t' : MatchState r,
      MatchInv order o side contraSide own t ∧ TurnFrame o own s t →
      matchTurn order side t = some t' →
      MatchInv order o side contraSide own t' ∧ TurnFrame o own s t' :=
    fun t t' ⟨hinv, hst⟩ h => ⟨hinv.turn h, hst.trans (matchTurn_frame hinv h)⟩
  obtain ⟨hinvt, hframe⟩ :=
    WhileLoop.visited_invariant hturn _ ⟨hinv, TurnFrame.refl s⟩ t ht
  rw [Option.mem_toList, MatchState.moment?] at hmt
  cases hcur : t.cursor with
  | levels => simp [hcur] at hmt
  | orders k i =>
      simp only [hcur] at hmt
      cases hp : (t.levelOrders k)[i]? with
      | none => simp [hp] at hmt
      | some p =>
          simp only [hp] at hmt
          split at hmt
          · cases hmt
          · rename_i hrem
            obtain rfl := Option.some.inj hmt
            obtain ⟨rfl, ps, es, hent, hes, hk⟩ := hinvt.cursor.head_of_fill hcur hp hrem
            have hat := hinvt.atHead hent
            have hle := executed_le t p
            refine ⟨?_, ?_, ?_, ?_, ?_, hk, ?_, ?_, ?_, ?_, ?_⟩
            · simp [hent]
            · have hoffers : ((pointers t.contraBook.entries).map t.heap.read).map Order.offer =
                  offers t.heap t.contraBook.entries := List.map_map
              simpa only [hoffers] using hframe.stamps
            · intro o' ho'
              obtain ⟨q, hq, rfl⟩ := List.mem_map.mp ho'
              obtain ⟨l, hl, hql⟩ := mem_pointers.mp hq
              exact (hinvt.levels l hl q hql).buySell
            · exact hat.index.id_ne_of_erase List.mem_cons_self
            · exact hat.resting.price_eq.symm
            · exact Quantity.pos_iff.mpr (executed_ne_zero hrem hat.resting.quantity)
            · exact UInt32.le_iff_toNat_le.mpr hle.1
            · exact UInt32.le_iff_toNat_le.mpr hle.2
            · simp only [MatchState.trade, hinvt.order_eq]
            · simp only [MatchState.trade, hinvt.order_eq]

omit [DecidableRel r] [IsStrictTotalOrder Price r] in
/-- The counterparty of an execution is one of its side. -/
theorem MomentWf.mem_side {L : List BookOffer} {m : Moment}
    (h : MomentWf o side contraSide L m) : m.resting ∈ m.side :=
  List.mem_of_mem_head? h.head

omit [DecidableRel r] [IsStrictTotalOrder Price r] in
/-- The counterparty of an execution was offered when the loops started. -/
theorem MomentWf.exists_offer {L : List BookOffer} {m : Moment}
    (h : MomentWf o side contraSide L m) : ∃ a ∈ L, a.stamp = m.resting.offer.stamp := by
  have hmem := h.stamps.subset (List.mem_map_of_mem (List.mem_map_of_mem h.mem_side))
  exact List.mem_map.mp hmem

end Moments

end ExchangeEngine
