import ExchangeEngine.Lib.Execution

/-!
# A Reference Market

What a price–time market does, as one function on books: `Book.perform` carries out a request to
enter an offer, to withdraw one or to replace one, and gives the **deals** that follow. Nothing
here knows how a program finds an offer or walks along a side.

A request that `rests` trades at prices no worse than its own and queues what is left; one that
does not trades at every price, and what is left of it is dropped. Replacing an offer withdraws it
and enters it again, on its side and with its tag, unless price and quantity stay what they are.

## Main results

* `Book.perform_mapTag`: a market does not look at what its offers carry.
* `Book.find?_of_mem`: with distinct identities, a market finds an offer by its identity.
* `Book.enter_split`: an offer that is entered in two parts trades as the whole one does.
-/

namespace PriceTime

variable {ι P τ υ : Type*}

/-! ### Tags -/

section MapTag

variable (f : τ → υ)

/-- An offer with another tag. -/
def Offer.mapTag (o : Offer ι P τ) : Offer ι P υ :=
  ⟨o.id, o.price, o.qty, f o.tag⟩

/-- Changing the tags of a fill, a sweep or a book changes nothing else of it. -/
def Fill.mapTag (x : Fill ι P τ) : Fill ι P υ :=
  ⟨x.offer.mapTag f, x.executed, x.left⟩

def Sweep.mapTag (w : Sweep ι P τ) : Sweep ι P υ :=
  ⟨w.fills.map (Fill.mapTag f), w.rest.map (Offer.mapTag f), w.left⟩

def Book.mapTag (b : Book ι P τ) : Book ι P υ :=
  ⟨b.bids.map (Offer.mapTag f), b.asks.map (Offer.mapTag f)⟩

/-- **A sweep does not look at tags.** -/
theorem sweep_mapTag (ok : P → Bool) (q : ℕ) (L : List (Offer ι P τ)) :
    sweep ok q (L.map (Offer.mapTag f)) = (sweep ok q L).mapTag f := by
  induction L generalizing q with
  | nil => rfl
  | cons o L ih =>
      have hprice : (o.mapTag f).price = o.price := rfl
      have hqty : (o.mapTag f).qty = o.qty := rfl
      simp only [List.map_cons, sweep, hprice, hqty, ih]
      split
      · rfl
      split <;> rfl

theorem enqueue_mapTag {r : P → P → Prop} [DecidableRel r] (o : Offer ι P τ)
    (L : List (Offer ι P τ)) :
    enqueue r (o.mapTag f) (L.map (Offer.mapTag f)) =
      (enqueue r o L).map (Offer.mapTag f) := by
  induction L with
  | nil => rfl
  | cons a L ih =>
      have hprice : (o.mapTag f).price = o.price := rfl
      have hprice' : (a.mapTag f).price = a.price := rfl
      simp only [List.map_cons, enqueue, hprice, hprice', ih]
      split <;> rfl

@[simp] theorem Book.side_mapTag (b : Book ι P τ) (s : Side) :
    (b.mapTag f).side s = (b.side s).map (Offer.mapTag f) := by
  cases s <;> rfl

theorem Book.setSide_mapTag (b : Book ι P τ) (s : Side) (L : List (Offer ι P τ)) :
    (b.mapTag f).setSide s (L.map (Offer.mapTag f)) = (b.setSide s L).mapTag f := by
  cases s <;> rfl

theorem Book.execution_mapTag (b : Book ι P τ) (s : Side) (ok : P → Bool) (o : Offer ι P τ) :
    (b.mapTag f).execution s ok (o.mapTag f) = (b.execution s ok o).mapTag f := by
  rw [Book.execution, Book.side_mapTag, sweep_mapTag]
  rfl

theorem Book.submit_mapTag [LT P] [DecidableLT P] (b : Book ι P τ) (s : Side) (ok : P → Bool)
    (keeps : Bool) (o : Offer ι P τ) :
    (b.mapTag f).submit s ok keeps (o.mapTag f) = (b.submit s ok keeps o).mapTag f := by
  have hqueued : enqueue s.better { o.mapTag f with qty := (b.execution s ok o).left }
      ((b.side s).map (Offer.mapTag f)) =
      (enqueue s.better { o with qty := (b.execution s ok o).left } (b.side s)).map
        (Offer.mapTag f) :=
    enqueue_mapTag f { o with qty := (b.execution s ok o).left } (b.side s)
  simp only [Book.submit, Book.execution_mapTag, Sweep.mapTag, Book.side_mapTag, hqueued,
    Book.setSide_mapTag]
  split <;> rfl

theorem Book.withdraw_mapTag [DecidableEq ι] (b : Book ι P τ) (i : ι) :
    (b.mapTag f).withdraw i = (b.withdraw i).mapTag f := by
  have hside : ∀ L : List (Offer ι P τ),
      (L.map (Offer.mapTag f)).filter (fun o => o.id ≠ i) =
        (L.filter fun o => o.id ≠ i).map (Offer.mapTag f) := by
    intro L
    rw [List.filter_map]
    rfl
  rw [Book.withdraw, Book.mapTag, Book.mapTag, hside, hside]
  rfl

end MapTag

/-! ### Requests and deals -/

/-- A deal between two offers. It is `full` if it closed both. -/
structure Deal (ι P : Type*) where
  buyer : ι
  seller : ι
  price : P
  qty : ℕ
  full : Bool
  deriving DecidableEq

/-- The deal that a fill is, for an offer of side `s` with the identity `i`. -/
def Fill.deal (s : Side) (i : ι) (x : Fill ι P τ) : Deal ι P where
  buyer := match s with
    | .bid => i
    | .ask => x.offer.id
  seller := match s with
    | .bid => x.offer.id
    | .ask => i
  price := x.offer.price
  qty := x.executed
  full := decide (x.executed = x.offer.qty ∧ x.left = 0)

/-- A request to a market. -/
inductive Request (ι P τ : Type*)
  | enter (s : Side) (rests : Bool) (o : Offer ι P τ)
  | withdraw (i : ι)
  | replace (i : ι) (price : P) (qty : ℕ)

/-- The prices at which an offer of side `s` at `price` trades: the prices no worse than its own,
or all of them if it does not rest. -/
def Side.trades [LT P] [DecidableLT P] (s : Side) (rests : Bool) (price p : P) : Bool :=
  !rests || !decide (s.contra.better price p)

theorem Side.trades_iff [LT P] [DecidableLT P] {s : Side} {rests : Bool} {price p : P} :
    s.trades rests price p = true ↔ (rests = true → ¬ s.contra.better price p) := by
  cases rests <;> simp [Side.trades]

namespace Book

variable [LT P] [DecidableLT P]

omit [LT P] [DecidableLT P] in
theorem ext_sides {b b' : Book ι P τ} (hbids : b.side .bid = b'.side .bid)
    (hasks : b.side .ask = b'.side .ask) : b = b' := by
  obtain ⟨bids, asks⟩ := b
  obtain ⟨bids', asks'⟩ := b'
  exact congrArg₂ Book.mk hbids hasks

/-- **Enter** an offer: trade with the other side, and queue what is left if the offer rests. -/
def enter (b : Book ι P τ) (s : Side) (rests : Bool) (o : Offer ι P τ) :
    Book ι P τ × List (Deal ι P) :=
  (b.submit s (s.trades rests o.price) rests o,
    (b.execution s (s.trades rests o.price) o).fills.map (Fill.deal s o.id))

omit [LT P] [DecidableLT P] in
/-- The offer with an identity, and its side. -/
def find? [DecidableEq ι] (b : Book ι P τ) (i : ι) : Option (Side × Offer ι P τ) :=
  match b.bids.find? fun o => o.id = i with
  | some o => some (.bid, o)
  | none => (b.asks.find? fun o => o.id = i).map fun o => (.ask, o)

variable [DecidableEq ι] [DecidableEq P]

/-- **What a market does** with a request, and the deals that follow. -/
def perform (b : Book ι P τ) : Request ι P τ → Book ι P τ × List (Deal ι P)
  | .enter s rests o => b.enter s rests o
  | .withdraw i => (b.withdraw i, [])
  | .replace i price qty =>
      match b.find? i with
      | none => (b, [])
      | some (s, o) =>
          if o.price = price ∧ o.qty = qty then (b, [])
          else (b.withdraw i).enter s true { o with price, qty }

omit [LT P] [DecidableLT P] [DecidableEq P] in
theorem find?_eq_none {b : Book ι P τ} {i : ι} : b.find? i = none ↔ i ∉ b.ids := by
  rw [ids, List.mem_append, not_or, find?]
  have hside : ∀ L : List (Offer ι P τ),
      L.find? (fun o => o.id = i) = none ↔ i ∉ L.map Offer.id := by
    intro L
    rw [List.find?_eq_none, List.mem_map, not_exists]
    exact forall_congr' fun o => by simp
  cases hbid : b.bids.find? fun o => o.id = i with
  | some o =>
      have hmem : ¬ i ∉ b.bids.map Offer.id := by
        rw [← hside, hbid]
        exact Option.some_ne_none o
      simp [not_not.mp hmem]
  | none => simp [(hside b.bids).mp hbid, hside]

omit [LT P] [DecidableLT P] [DecidableEq P] in
/-- What is found is an offer of the side that comes with it. -/
theorem mem_side_of_find? {b : Book ι P τ} {i : ι} {s : Side} {o : Offer ι P τ}
    (h : b.find? i = some (s, o)) : o ∈ b.side s := by
  rw [find?] at h
  cases hbid : b.bids.find? fun o => o.id = i with
  | some a =>
      rw [hbid] at h
      obtain ⟨rfl, rfl⟩ := Prod.mk.inj (Option.some.inj h)
      exact List.mem_of_find?_eq_some hbid
  | none =>
      rw [hbid] at h
      obtain ⟨a, ha, heq⟩ := Option.map_eq_some_iff.mp h
      obtain ⟨rfl, rfl⟩ := Prod.mk.inj heq
      exact List.mem_of_find?_eq_some ha

omit [LT P] [DecidableLT P] [DecidableEq P] in
/-- With distinct identities, the offer with an identity is the only one. -/
theorem find?_of_mem {b : Book ι P τ} (h : b.ids.Nodup) {s : Side} {o : Offer ι P τ}
    (ho : o ∈ b.side s) : b.find? o.id = some (s, o) := by
  have hfind : ∀ L : List (Offer ι P τ), (L.map Offer.id).Nodup → o ∈ L →
      L.find? (fun a => a.id = o.id) = some o := by
    intro L hL hmem
    obtain ⟨a, ha⟩ : ∃ a, L.find? (fun a => a.id = o.id) = some a := by
      refine Option.isSome_iff_exists.mp (List.find?_isSome.mpr ⟨o, hmem, ?_⟩)
      simp
    have hid : a.id = o.id := by simpa using List.find?_some ha
    rw [ha, List.inj_on_of_nodup_map hL (List.mem_of_find?_eq_some ha) hmem hid]
  obtain ⟨hbids, hasks, hdisj⟩ := List.nodup_append.mp h
  cases s with
  | bid => rw [find?, hfind b.bids hbids ho]
  | ask =>
      have hnone : b.bids.find? (fun a => a.id = o.id) = none := by
        refine List.find?_eq_none.mpr fun a ha heq => ?_
        have hid : a.id = o.id := by simpa using heq
        exact hdisj _ (List.mem_map_of_mem ha) _ (List.mem_map_of_mem ho) hid
      rw [find?, hnone, hfind b.asks hasks ho]
      rfl

omit [LT P] [DecidableLT P] [DecidableEq P] in
theorem find?_mapTag (f : τ → υ) (b : Book ι P τ) (i : ι) :
    (b.mapTag f).find? i = (b.find? i).map fun x => (x.1, x.2.mapTag f) := by
  have hside : ∀ L : List (Offer ι P τ),
      (L.map (Offer.mapTag f)).find? (fun o => o.id = i) =
        (L.find? fun o => o.id = i).map (Offer.mapTag f) := by
    intro L
    rw [List.find?_map]
    rfl
  simp only [find?, mapTag, hside]
  cases b.bids.find? fun o => o.id = i with
  | some o => rfl
  | none =>
      cases b.asks.find? fun o => o.id = i with
      | some o => rfl
      | none => rfl

omit [DecidableEq ι] [DecidableEq P] in
theorem enter_mapTag (f : τ → υ) (b : Book ι P τ) (s : Side) (rests : Bool) (o : Offer ι P τ) :
    (b.mapTag f).enter s rests (o.mapTag f) =
      ((b.enter s rests o).1.mapTag f, (b.enter s rests o).2) := by
  refine Prod.ext (submit_mapTag f b s _ rests o) ?_
  have hexec := execution_mapTag f b s (s.trades rests o.price) o
  change ((b.mapTag f).execution s (s.trades rests o.price) (o.mapTag f)).fills.map _ = _
  rw [hexec, Sweep.mapTag, List.map_map]
  rfl

/-! ### Entering in parts -/

omit [DecidableEq P] in
/-- **An offer in two parts.** The other side is left as the whole offer leaves it, and the deals
of the parts take from each of its offers what those of the whole do. An offer that does not rest
leaves the whole book so. -/
theorem enter_split (b : Book ι P τ) (s : Side) (rests : Bool) (o o₁ o₂ : Offer ι P τ)
    (hprice₁ : o₁.price = o.price) (hprice₂ : o₂.price = o.price) (hqty : o.qty = o₁.qty + o₂.qty) :
    ((b.enter s rests o₁).1.enter s rests o₂).1.side s.contra =
        (b.enter s rests o).1.side s.contra ∧
      (∀ i, executedFor i (b.execution s (s.trades rests o₁.price) o₁).fills +
          executedFor i ((b.enter s rests o₁).1.execution s (s.trades rests o₂.price) o₂).fills =
        executedFor i (b.execution s (s.trades rests o.price) o).fills) ∧
      (rests = false → ((b.enter s rests o₁).1.enter s rests o₂).1 = (b.enter s rests o).1) := by
  have hfirst : (b.enter s rests o₁).1.side s.contra =
      (sweep (s.trades rests o.price) o₁.qty (b.side s.contra)).rest := by
    rw [← hprice₁]
    exact side_contra_submit b o₁
  have hsecond : ((b.enter s rests o₁).1.enter s rests o₂).1.side s.contra =
      (sweep (s.trades rests o.price) o₂.qty ((b.enter s rests o₁).1.side s.contra)).rest := by
    rw [← hprice₂]
    exact side_contra_submit _ o₂
  have hwhole : (b.enter s rests o).1.side s.contra =
      (sweep (s.trades rests o.price) (o₁.qty + o₂.qty) (b.side s.contra)).rest := by
    rw [← hqty]
    exact side_contra_submit b o
  have hcontra : ((b.enter s rests o₁).1.enter s rests o₂).1.side s.contra =
      (b.enter s rests o).1.side s.contra := by
    rw [hsecond, hfirst, hwhole]
    exact (sweep_add _ _ _ _).1
  refine ⟨hcontra, fun i => ?_, fun hrests => ?_⟩
  · rw [execution, execution, execution, hprice₁, hprice₂, hfirst, hqty]
    exact executedFor_add _ i _ _ _
  · have hown : ∀ (b : Book ι P τ) (o : Offer ι P τ),
        (b.enter s rests o).1.side s = b.side s := by
      intro b o
      rw [enter, side_submit, hrests, if_neg (by simp)]
    have hside : ((b.enter s rests o₁).1.enter s rests o₂).1.side s =
        (b.enter s rests o).1.side s := by
      rw [hown, hown, hown]
    cases s with
    | bid => exact Book.ext_sides hside hcontra
    | ask => exact Book.ext_sides hcontra hside

end Book

/-- The request with another tag. -/
def Request.mapTag (f : τ → υ) : Request ι P τ → Request ι P υ
  | .enter s rests o => .enter s rests (o.mapTag f)
  | .withdraw i => .withdraw i
  | .replace i price qty => .replace i price qty

/-- **A market does not look at what its offers carry.** -/
theorem Book.perform_mapTag [LT P] [DecidableLT P] [DecidableEq ι] [DecidableEq P] (f : τ → υ)
    (b : Book ι P τ) (request : Request ι P τ) :
    (b.mapTag f).perform (request.mapTag f) =
      ((b.perform request).1.mapTag f, (b.perform request).2) := by
  cases request with
  | enter s rests o => exact enter_mapTag f b s rests o
  | withdraw i => exact Prod.ext (withdraw_mapTag f b i) rfl
  | replace i price qty =>
      simp only [Request.mapTag, perform, find?_mapTag]
      cases b.find? i with
      | none => rfl
      | some x =>
          obtain ⟨s, o⟩ := x
          have hprice : (o.mapTag f).price = o.price := rfl
          have hqty : (o.mapTag f).qty = o.qty := rfl
          simp only [Option.map_some, hprice, hqty]
          split
          · rfl
          · rw [withdraw_mapTag]
            exact enter_mapTag f (b.withdraw i) s true { o with price, qty }

end PriceTime
