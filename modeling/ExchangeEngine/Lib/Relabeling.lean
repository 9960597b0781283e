import ExchangeEngine.Lib.Market

/-!
# Other Names for Prices

A market compares prices and looks at nothing else about them. So it does the same under other
names for the prices, as long as they come in the same order; and it does the same with buyers and
sellers exchanged, if they come in the opposite order.

`Relabeling` is a renaming of either kind. It only has to respect the order of a set of prices, so
that it may be a map that is monotone on a range, such as a multiplication in a fixed width.

## Main results

* `Relabeling.perform_book`: a market carries out a relabeled request on a relabeled book as it
  carries out the request on the book, and the deals are the relabeled deals.
-/

namespace PriceTime

variable {ι P Q τ : Type*}

/-- The side itself, or the other one. -/
def Side.turn (exchanged : Bool) (s : Side) : Side :=
  if exchanged then s.contra else s

@[simp] theorem Side.turn_turn (exchanged : Bool) (s : Side) :
    (s.turn exchanged).turn exchanged = s := by
  cases exchanged <;> cases s <;> rfl

@[simp] theorem Side.turn_contra (exchanged : Bool) (s : Side) :
    s.contra.turn exchanged = (s.turn exchanged).contra := by
  cases exchanged <;> cases s <;> rfl

/-- **Other names for prices**, respecting the order of the prices `within` a set: the better price
of a side stays the better one, on the same side or, if the sides are exchanged, on the other. -/
structure Relabeling (P Q : Type*) [LT P] [LT Q] (within : P → Prop) where
  exchanged : Bool
  price : P → Q
  better_iff : ∀ s p q, within p → within q →
    ((Side.turn exchanged s).better (price p) (price q) ↔ s.better p q)
  injOn : ∀ p q, within p → within q → price p = price q → p = q

namespace Relabeling

variable [LT P] [LT Q] {within : P → Prop} (σ : Relabeling P Q within)

/-! ### What is relabeled -/

/-- A relabeling of prices acts on everything that has a price or a side: on a side, by exchanging
the two or not, -/
def side (s : Side) : Side :=
  s.turn σ.exchanged

/-- on an offer, by its price, -/
def offer (o : Offer ι P τ) : Offer ι Q τ :=
  ⟨o.id, σ.price o.price, o.qty, o.tag⟩

/-- on a fill, by its offer, -/
def fill (x : Fill ι P τ) : Fill ι Q τ :=
  ⟨σ.offer x.offer, x.executed, x.left⟩

/-- on a sweep, by its fills and by what is left of the queue, -/
def sweep (w : Sweep ι P τ) : Sweep ι Q τ :=
  ⟨w.fills.map σ.fill, w.rest.map σ.offer, w.left⟩

/-- on a book, by putting each side where it belongs, -/
def book (b : Book ι P τ) : Book ι Q τ :=
  ⟨(b.side (σ.side .bid)).map σ.offer, (b.side (σ.side .ask)).map σ.offer⟩

/-- on a deal, by exchanging buyer and seller with the sides, -/
def deal (d : Deal ι P) : Deal ι Q :=
  ⟨if σ.exchanged then d.seller else d.buyer, if σ.exchanged then d.buyer else d.seller,
    σ.price d.price, d.qty, d.full⟩

/-- and on a request. -/
def request : Request ι P τ → Request ι Q τ
  | .enter s rests o => .enter (σ.side s) rests (σ.offer o)
  | .withdraw i => .withdraw i
  | .replace i price qty => .replace i (σ.price price) qty

/-- The prices that a request brings to the book are within the set. -/
def Covers (within : P → Prop) : Request ι P τ → Prop
  | .enter _ rests o => rests = true → within o.price
  | .withdraw _ => True
  | .replace _ price _ => within price

@[simp] theorem side_side (s : Side) : σ.side (σ.side s) = s :=
  s.turn_turn σ.exchanged

@[simp] theorem side_contra (s : Side) : σ.side s.contra = (σ.side s).contra :=
  s.turn_contra σ.exchanged

@[simp] theorem id_offer (o : Offer ι P τ) : (σ.offer o).id = o.id :=
  rfl

@[simp] theorem price_offer (o : Offer ι P τ) : (σ.offer o).price = σ.price o.price :=
  rfl

@[simp] theorem qty_offer (o : Offer ι P τ) : (σ.offer o).qty = o.qty :=
  rfl

@[simp] theorem side_book (b : Book ι P τ) (s : Side) :
    (σ.book b).side s = (b.side (σ.side s)).map σ.offer := by
  cases s <;> rfl

theorem map_id_offer (L : List (Offer ι P τ)) :
    (L.map σ.offer).map Offer.id = L.map Offer.id := by
  rw [List.map_map]
  rfl

theorem mem_ids_book {b : Book ι P τ} {i : ι} : i ∈ (σ.book b).ids ↔ i ∈ b.ids := by
  rw [Book.mem_ids_iff .bid, Book.mem_ids_iff (σ.side .bid), side_book, side_book, map_id_offer,
    map_id_offer, side_contra]

theorem nodup_ids_book {b : Book ι P τ} : (σ.book b).ids.Nodup ↔ b.ids.Nodup := by
  rw [Book.nodup_ids_iff .bid, Book.nodup_ids_iff (σ.side .bid), side_book, side_book,
    map_id_offer, map_id_offer, side_contra]

theorem deal_fill (s : Side) (i : ι) (x : Fill ι P τ) :
    (σ.fill x).deal (σ.side s) i = σ.deal (x.deal s i) := by
  simp only [deal, side, Side.turn]
  cases σ.exchanged <;> cases s <;> rfl

/-! ### A market does not look at names -/

section Perform

variable {σ}

/-- The names of prices that are within the set are as different as the prices. -/
theorem price_eq_iff {p q : P} (hp : within p) (hq : within q) :
    σ.price p = σ.price q ↔ p = q :=
  ⟨σ.injOn p q hp hq, fun h => h ▸ rfl⟩

theorem better_side_iff (s : Side) {p q : P} (hp : within p) (hq : within q) :
    (σ.side s).better (σ.price p) (σ.price q) ↔ s.better p q :=
  σ.better_iff s p q hp hq

omit [LT P] [LT Q] in
theorem book_ext_sides {b b' : Book ι P τ} (s : Side) (hown : b.side s = b'.side s)
    (hcontra : b.side s.contra = b'.side s.contra) : b = b' := by
  cases s with
  | bid => exact Book.ext_sides hown hcontra
  | ask => exact Book.ext_sides hcontra hown

variable [DecidableLT P] [DecidableLT Q]

/-- An offer trades at a price under the new names if it does under the old ones. -/
theorem trades_price (s : Side) {rests : Bool} {p q : P} (hp : rests = true → within p)
    (hq : within q) :
    (σ.side s).trades rests (σ.price p) (σ.price q) = s.trades rests p q := by
  cases rests with
  | false => rfl
  | true =>
      have hbetter := σ.better_side_iff s.contra (hp rfl) hq
      rw [side_contra] at hbetter
      simp only [Side.trades, hbetter]

omit [DecidableLT P] [DecidableLT Q] in
theorem sweep_map {ok : P → Bool} {ok' : Q → Bool} {L : List (Offer ι P τ)}
    (hok : ∀ o ∈ L, ok' (σ.price o.price) = ok o.price) (q : ℕ) :
    PriceTime.sweep ok' q (L.map σ.offer) = σ.sweep (PriceTime.sweep ok q L) := by
  induction L generalizing q with
  | nil => rfl
  | cons o L ih =>
      have ho := hok o List.mem_cons_self
      have hrest := fun q => ih (fun a ha => hok a (List.mem_cons_of_mem o ha)) q
      simp only [List.map_cons, PriceTime.sweep, price_offer, qty_offer, ho, hrest]
      split
      · rfl
      split <;> rfl

theorem enqueue_map (s : Side) {o : Offer ι P τ} {L : List (Offer ι P τ)} (ho : within o.price)
    (hL : ∀ a ∈ L, within a.price) :
    enqueue (σ.side s).better (σ.offer o) (L.map σ.offer) =
      (enqueue s.better o L).map σ.offer := by
  induction L with
  | nil => rfl
  | cons a L ih =>
      have hbetter := σ.better_side_iff s ho (hL a List.mem_cons_self)
      have hrest := ih fun a ha => hL a (List.mem_cons_of_mem _ ha)
      simp only [List.map_cons, enqueue, price_offer, hbetter, hrest]
      split <;> rfl

variable {b : Book ι P τ}

theorem execution_book (hb : ∀ s, ∀ a ∈ b.side s, within a.price) (s : Side) {rests : Bool}
    {o : Offer ι P τ} (ho : rests = true → within o.price) :
    (σ.book b).execution (σ.side s) ((σ.side s).trades rests (σ.price o.price)) (σ.offer o) =
      σ.sweep (b.execution s (s.trades rests o.price) o) := by
  rw [Book.execution, Book.execution, side_book, side_contra, side_side, qty_offer]
  exact sweep_map (fun a ha => σ.trades_price s ho (hb _ a ha)) o.qty

theorem enter_book (hb : ∀ s, ∀ a ∈ b.side s, within a.price) (s : Side) {rests : Bool}
    {o : Offer ι P τ} (ho : rests = true → within o.price) :
    (σ.book b).enter (σ.side s) rests (σ.offer o) =
      (σ.book (b.enter s rests o).1, (b.enter s rests o).2.map σ.deal) := by
  have hexec := σ.execution_book hb s ho
  refine Prod.ext (book_ext_sides (σ.side s) ?_ ?_) ?_
  · rw [side_book, side_side, Book.enter, Book.enter]
    simp only [price_offer, Book.side_submit, hexec, side_book, side_side, sweep]
    split
    · rename_i hkeep
      exact σ.enqueue_map s
        (o := { o with qty := (b.execution s (s.trades rests o.price) o).left }) (ho hkeep.1) (hb s)
    · rfl
  · rw [side_book, side_contra, side_side, Book.enter, Book.enter]
    simp only [price_offer, Book.side_contra_submit, hexec, sweep]
  · simp only [Book.enter, price_offer, hexec, sweep, id_offer, List.map_map]
    exact List.map_congr_left fun x _ => σ.deal_fill s o.id x

theorem within_enter (hb : ∀ s, ∀ a ∈ b.side s, within a.price) {s : Side} {rests : Bool}
    {o : Offer ι P τ} (ho : rests = true → within o.price) :
    ∀ t, ∀ a ∈ (b.enter s rests o).1.side t, within a.price := by
  intro t a ha
  rcases Book.mem_side_submit ha with ⟨-, hkeep, rfl⟩ | ⟨a', ha', hstamp⟩
  · exact ho hkeep
  · rw [← show a'.price = a.price from congrArg (fun x => x.2.1) hstamp]
    exact hb t a' ha'

variable [DecidableEq ι]

omit [DecidableLT P] [DecidableLT Q] in
theorem withdraw_book (i : ι) : (σ.book b).withdraw i = σ.book (b.withdraw i) := by
  have hside : ∀ s, ((σ.book b).withdraw i).side s = (σ.book (b.withdraw i)).side s := by
    intro s
    rw [Book.side_withdraw, side_book, side_book, Book.side_withdraw, List.filter_map]
    rfl
  exact Book.ext_sides (hside .bid) (hside .ask)

omit [LT P] [DecidableLT P] in
theorem within_withdraw (hb : ∀ s, ∀ a ∈ b.side s, within a.price) (i : ι) :
    ∀ s, ∀ a ∈ (b.withdraw i).side s, within a.price := by
  intro s a ha
  rw [Book.side_withdraw] at ha
  exact hb s a (List.mem_of_mem_filter ha)

omit [DecidableLT P] [DecidableLT Q] in
/-- With distinct identities, an offer is found on the side where it is under the new names. -/
theorem find?_book (hnd : b.ids.Nodup) (i : ι) :
    (σ.book b).find? i = (b.find? i).map fun x => (σ.side x.1, σ.offer x.2) := by
  by_cases hi : i ∈ b.ids
  · obtain ⟨s, a, ha, rfl⟩ := Book.mem_ids.mp hi
    have hmem : σ.offer a ∈ (σ.book b).side (σ.side s) := by
      rw [side_book, side_side]
      exact List.mem_map_of_mem ha
    rw [Book.find?_of_mem hnd ha, ← σ.id_offer a, Book.find?_of_mem (σ.nodup_ids_book.mpr hnd) hmem]
    rfl
  · rw [Book.find?_eq_none.mpr hi, Book.find?_eq_none.mpr fun h => hi (σ.mem_ids_book.mp h)]
    rfl

variable [DecidableEq P] [DecidableEq Q]

/-- **A market does not look at the names of prices**, nor at which of the sides is which. -/
theorem perform_book (hnd : b.ids.Nodup) (hb : ∀ s, ∀ a ∈ b.side s, within a.price)
    {request : Request ι P τ} (hrequest : Covers within request) :
    (σ.book b).perform (σ.request request) =
      (σ.book (b.perform request).1, (b.perform request).2.map σ.deal) := by
  cases request with
  | enter s rests o => exact σ.enter_book hb s hrequest
  | withdraw i => exact Prod.ext (σ.withdraw_book i) rfl
  | replace i price qty =>
      simp only [Relabeling.request, Book.perform, σ.find?_book hnd]
      cases hfind : b.find? i with
      | none => rfl
      | some x =>
          obtain ⟨s, o⟩ := x
          have hsame : σ.price o.price = σ.price price ↔ o.price = price :=
            σ.price_eq_iff (hb s o (Book.mem_side_of_find? hfind)) hrequest
          simp only [Option.map_some, price_offer, qty_offer, hsame]
          split
          · rfl
          · rw [σ.withdraw_book]
            exact σ.enter_book (within_withdraw hb i) s
              (o := { o with price, qty }) fun _ => hrequest

/-- What a market does leaves the prices of its offers within the set. -/
theorem within_perform (hb : ∀ s, ∀ a ∈ b.side s, within a.price) {request : Request ι P τ}
    (hrequest : Covers within request) :
    ∀ t, ∀ a ∈ (b.perform request).1.side t, within a.price := by
  cases request with
  | enter s rests o => exact within_enter hb hrequest
  | withdraw i => exact within_withdraw hb i
  | replace i price qty =>
      simp only [Book.perform]
      cases b.find? i with
      | none => exact hb
      | some x =>
          obtain ⟨s, o⟩ := x
          simp only
          split
          · exact hb
          · exact within_enter (within_withdraw hb i) fun _ => hrequest

end Perform

end Relabeling

end PriceTime
