import ExchangeEngine.BookInvariant

/-!
# Booking and Erasing on One Side

What the two operations on the levels of one side do to the invariant and to the offers of
that side, for either comparison `r`.

* `upsert_spec`: appending an order to its level is `PriceTime.enqueue` of its offer.
* `eraseFromBook_spec`: erasing an order from its level filters its id out.
-/

open PriceTime

namespace ExchangeEngine

/-- Erasing the first element with a given image erases all of them when images differ. -/
theorem eraseP_eq_filter {α β : Type*} [DecidableEq β] {f : α → β} {l : List α} {b : β}
    (h : (l.map f).Nodup) :
    (l.eraseP fun x => f x = b) = l.filter fun x => f x ≠ b := by
  induction l with
  | nil => rfl
  | cons a l ih =>
      obtain ⟨ha, hl⟩ := List.nodup_cons.mp h
      by_cases hab : f a = b
      · have hne : ∀ x ∈ l, f x ≠ b := by
          intro x hx hxb
          exact ha (List.mem_map.mpr ⟨x, hx, hxb.trans hab.symm⟩)
        rw [List.eraseP_cons_of_pos (by simpa using hab),
          List.filter_cons_of_neg (by simpa using hab)]
        exact (List.filter_eq_self.mpr fun x hx => by simpa using hne x hx).symm
      · rw [List.eraseP_cons_of_neg (by simpa using hab),
          List.filter_cons_of_pos (by simpa using hab), ih hl]

theorem offersAt_filter (heap : Heap) (ps : OrderPointers) (i : OrderId) :
    offersAt heap (ps.filter fun q => (heap.read q).orderId ≠ i) =
      (offersAt heap ps).filter fun o => o.id ≠ i := by
  rw [offersAt, offersAt, List.filter_map]
  rfl

section Levels

variable {heap : Heap} {side : BuySell} {k : Price} {l₁ l₂ : Levels}

theorem levelsWf_append :
    LevelsWf heap side (l₁ ++ l₂) ↔ LevelsWf heap side l₁ ∧ LevelsWf heap side l₂ :=
  List.forall_mem_append

theorem levelsWf_cons {l : Price × OrderPointers} :
    LevelsWf heap side (l :: l₂) ↔
      (∀ p ∈ l.2, Resting heap side l.1 p) ∧ LevelsWf heap side l₂ :=
  List.forall_mem_cons

theorem noEmptyLevel_append : NoEmptyLevel (l₁ ++ l₂) ↔ NoEmptyLevel l₁ ∧ NoEmptyLevel l₂ :=
  List.forall_mem_append

theorem noEmptyLevel_cons {l : Price × OrderPointers} :
    NoEmptyLevel (l :: l₂) ↔ l.2 ≠ [] ∧ NoEmptyLevel l₂ :=
  List.forall_mem_cons

/-- The orders of the level at `k`, if there is one. -/
theorem pointers_level (k : Price) (level : Option OrderPointers) :
    pointers (level.toList.map fun v => (k, v)) = level.getD [] := by
  cases level <;> simp

theorem levelsWf_level {level : Option OrderPointers} :
    LevelsWf heap side (level.toList.map fun v => (k, v)) ↔
      ∀ p ∈ level.getD [], Resting heap side k p := by
  cases level <;> simp [LevelsWf]

/-- The price of an order is the key of its level. -/
theorem LevelsWf.exists_key (h : LevelsWf heap side l₁) {q : OrderPointer}
    (hq : q ∈ pointers l₁) : ∃ l ∈ l₁, (heap.read q).price = l.1 := by
  obtain ⟨l, hl, hql⟩ := mem_pointers.mp hq
  exact ⟨l, hl, (h l hl q hql).price_eq⟩

theorem LevelsWf.resting (h : LevelsWf heap side l₁) {q : OrderPointer}
    (hq : q ∈ pointers l₁) : Resting heap side (heap.read q).price q := by
  obtain ⟨l, hl, hql⟩ := mem_pointers.mp hq
  have hrest := h l hl q hql
  exact hrest.price_eq.symm ▸ hrest

end Levels

section LevelBook

variable {r : Price → Price → Prop} [DecidableRel r] [IsStrictTotalOrder Price r]
  {heap : Heap} {side : BuySell} {m : LevelBook r} {k : Price} {p : OrderPointer}

/-- **Appending an order to its level**, which may be a new one, queues its offer. -/
theorem upsert_spec (hwf : LevelsWf heap side m.entries) (hne : NoEmptyLevel m.entries)
    (hp : Resting heap side k p) :
    LevelsWf heap side (m.upsert k fun level => level.getD [] ++ [p]).entries ∧
    NoEmptyLevel (m.upsert k fun level => level.getD [] ++ [p]).entries ∧
    (pointers (m.upsert k fun level => level.getD [] ++ [p]).entries).Perm
      (p :: pointers m.entries) ∧
    offers heap (m.upsert k fun level => level.getD [] ++ [p]).entries =
      enqueue r (heap.read p).offer (offers heap m.entries) := by
  obtain ⟨l₁, level, l₂, hent, h₁, h₂, -, hup, -⟩ := m.split k
  rw [hup]
  rw [hent, levelsWf_append, levelsWf_append, levelsWf_level] at hwf
  rw [hent, noEmptyLevel_append, noEmptyLevel_append] at hne
  obtain ⟨⟨hwf₁, hlevel⟩, hwf₂⟩ := hwf
  have hold : pointers m.entries = (pointers l₁ ++ level.getD []) ++ pointers l₂ := by
    rw [hent, pointers_append, pointers_append, pointers_level]
  have hnew : pointers (l₁ ++ (k, level.getD [] ++ [p]) :: l₂) =
      (pointers l₁ ++ level.getD []) ++ p :: pointers l₂ := by
    simp
  refine ⟨?_, ?_, ?_, ?_⟩
  · rw [levelsWf_append, levelsWf_cons]
    refine ⟨hwf₁, fun q hq => ?_, hwf₂⟩
    rcases List.mem_append.mp hq with hq | hq
    · exact hlevel q hq
    · rw [List.mem_singleton.mp hq]
      exact hp
  · rw [noEmptyLevel_append, noEmptyLevel_cons]
    exact ⟨hne.1.1, by simp, hne.2⟩
  · rw [hnew, hold]
    exact List.perm_middle
  · rw [offers, offers, hnew, hold, offersAt_append heap _ (p :: pointers l₂),
      offersAt_append heap _ (pointers l₂), offersAt_cons]
    have hprice : (heap.read p).offer.price = k := hp.price_eq
    refine (enqueue_append (r := r) ?_ ?_).symm
    · -- what stands before the end of the level is at a better or the same price
      intro a ha
      obtain ⟨q, hq, rfl⟩ := mem_offersAt.mp ha
      rw [hprice]
      rcases List.mem_append.mp hq with hq | hq
      · obtain ⟨l, hl, hkey⟩ := hwf₁.exists_key hq
        rw [show (heap.read q).offer.price = l.1 from hkey]
        exact asymm_of r (h₁ l hl)
      · rw [show (heap.read q).offer.price = k from (hlevel q hq).price_eq]
        exact irrefl_of r k
    · intro a ha
      obtain ⟨q, hq, rfl⟩ := mem_offersAt.mp ha
      obtain ⟨l, hl, hkey⟩ := hwf₂.exists_key hq
      rw [hprice, show (heap.read q).offer.price = l.1 from hkey]
      exact h₂ l hl

/-- **Erasing a resting order from its level**, with the level when it was the last one,
filters its id out. -/
theorem eraseFromBook_spec (hwf : LevelsWf heap side m.entries)
    (hne : NoEmptyLevel m.entries)
    (hnd : ((pointers m.entries).map fun q => (heap.read q).orderId).Nodup)
    (hp : p ∈ pointers m.entries) :
    LevelsWf heap side (Orderbook.eraseFromBook heap p m).entries ∧
    NoEmptyLevel (Orderbook.eraseFromBook heap p m).entries ∧
    pointers (Orderbook.eraseFromBook heap p m).entries =
      (pointers m.entries).filter fun q => (heap.read q).orderId ≠ (heap.read p).orderId := by
  obtain ⟨l₁, level, l₂, hent, h₁, h₂, hfind, hup, herase⟩ := m.split (heap.read p).price
  have hold : pointers m.entries = (pointers l₁ ++ level.getD []) ++ pointers l₂ := by
    rw [hent, pointers_append, pointers_append, pointers_level]
  rw [hent, levelsWf_append, levelsWf_append, levelsWf_level] at hwf
  obtain ⟨⟨hwf₁, hlevel⟩, hwf₂⟩ := hwf
  rw [hent, noEmptyLevel_append, noEmptyLevel_append] at hne
  have hnot₁ : p ∉ pointers l₁ := by
    intro hmem
    obtain ⟨l, hl, hkey⟩ := hwf₁.exists_key hmem
    exact absurd (hkey ▸ h₁ l hl) (irrefl_of r _)
  have hnot₂ : p ∉ pointers l₂ := by
    intro hmem
    obtain ⟨l, hl, hkey⟩ := hwf₂.exists_key hmem
    exact absurd (hkey ▸ h₂ l hl) (irrefl_of r _)
  -- an id occurs once, so the other levels lose nothing
  have hkeep : ∀ ps : OrderPointers, ps.Sublist (pointers m.entries) → p ∉ ps →
      ps.filter (fun q => (heap.read q).orderId ≠ (heap.read p).orderId) = ps := by
    intro ps hsub hnot
    refine List.filter_eq_self.mpr fun q hq => ?_
    have hqp : (heap.read q).orderId ≠ (heap.read p).orderId := by
      intro heq
      exact hnot (List.inj_on_of_nodup_map hnd (hsub.subset hq) hp heq ▸ hq)
    simpa using hqp
  have hsub₁ : (pointers l₁).Sublist (pointers m.entries) := by
    rw [hold, List.append_assoc]
    exact List.sublist_append_left _ _
  have hsub₂ : (pointers l₂).Sublist (pointers m.entries) := by
    rw [hold]
    exact List.sublist_append_right _ _
  have hsublevel : (level.getD []).Sublist (pointers m.entries) := by
    rw [hold]
    exact (List.sublist_append_right _ _).trans (List.sublist_append_left _ _)
  rw [hold, List.filter_append, List.filter_append, hkeep _ hsub₁ hnot₁, hkeep _ hsub₂ hnot₂]
  have hmem : p ∈ level.getD [] := by
    rw [hold, List.mem_append, List.mem_append] at hp
    exact (hp.resolve_right hnot₂).resolve_left hnot₁
  cases level with
  | none => exact absurd hmem List.not_mem_nil
  | some ps =>
      simp only [Option.getD_some] at hsublevel hlevel hmem ⊢
      have hps : (ps.eraseP fun q => (heap.read q).orderId = (heap.read p).orderId) =
          ps.filter fun q => (heap.read q).orderId ≠ (heap.read p).orderId :=
        eraseP_eq_filter (hnd.sublist (hsublevel.map _))
      simp only [Orderbook.eraseFromBook, hfind, hps]
      split
      · rename_i hnil
        rw [herase, levelsWf_append, noEmptyLevel_append, pointers_append, hnil,
          List.append_nil]
        exact ⟨⟨hwf₁, hwf₂⟩, ⟨hne.1.1, hne.2⟩, rfl⟩
      · rename_i hcons
        rw [hup, levelsWf_append, levelsWf_cons, noEmptyLevel_append, noEmptyLevel_cons,
          pointers_append, pointers_cons, List.append_assoc]
        refine ⟨⟨hwf₁, fun q hq => ?_, hwf₂⟩, ⟨hne.1.1, hcons, hne.2⟩, rfl⟩
        exact hlevel q (List.mem_of_mem_filter hq)

end LevelBook

end ExchangeEngine
