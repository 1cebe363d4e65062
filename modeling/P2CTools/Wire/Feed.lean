import P2CTools.Wire.Outcome

/-!
# Feeding a State from a Source

Loops that take one item after another from a source and fold it into a state
until the state is finished.

The source has a state of its own and may fail, and so may the fold. `feed`
runs on a bound. `Reaches` is what can be seen at a head of the loop: the state,
the source, and the items that were taken to get there. It grows at its end,
so that an invariant of the loop is an induction on it. `Fed` is a complete
run, which ends at a finished state, and it is cut at its front, as the loop
itself is. `feed_eq_ok_iff` makes the loop and the complete runs the same.

If every item costs the source something, a bound above what the source has is
never used up. That is `fails_feed`, where the cost is a measure.

## Main definitions

* `feed`: The loop.
* `Fed`: The loop as a relation.
* `Reaches`: The heads of the loop.
* `Delivers`: The items a source gives away.

## Theorems

* `feed_eq_ok_iff`: How the loop returns.
* `Fed.reaches`: A complete run ends at a head of the loop, finished.
* `Reaches.invariant`: The invariant rule.
* `Reaches.delivers`: The items that were taken.
* `Delivers.keeps`: What a source keeps.
* `feed_fails_at`: A fold that fails at a head makes the loop fail.
* `feed_bound`: The bound is never used up.
* `fails_feed`: The errors of the loop, without the bound's own.
-/

namespace Wire

variable {N ι σ ε : Type}

/-- Take items from the source and fold them into the state until it is
    finished, for at most the given number of tests. -/
def feed (stuck : ε) (read : N → Except ε (ι × N)) (step : ι → σ → Except ε σ)
    (finished : σ → Bool) : Nat → σ → N → Except ε (σ × N)
  | 0, _, _ => .error stuck
  | fuel + 1, s, n =>
      if finished s then .ok (s, n)
      else do
        let (i, n') ← read n
        let s' ← step i s
        feed stuck read step finished fuel s' n'

/-- The loop, with the items it takes. -/
inductive Fed (read : N → Except ε (ι × N)) (step : ι → σ → Except ε σ) (finished : σ → Bool) :
    σ → N → List ι → σ → N → Prop
  | stop (s : σ) (n : N) (hs : finished s = true) : Fed read step finished s n [] s n
  | next (s s₁ s' : σ) (n n₁ n' : N) (i : ι) (items : List ι) (hs : finished s = false)
      (hread : read n = .ok (i, n₁)) (hstep : step i s = .ok s₁)
      (tl : Fed read step finished s₁ n₁ items s' n') :
      Fed read step finished s n (i :: items) s' n'

/-- The items that a source gives away, one after the other. -/
inductive Delivers (read : N → Except ε (ι × N)) : N → List ι → N → Prop
  | nil (n : N) : Delivers read n [] n
  | cons (n n₁ n' : N) (i : ι) (items : List ι) (hd : read n = .ok (i, n₁))
      (tl : Delivers read n₁ items n') : Delivers read n (i :: items) n'

/-- The heads of the loop that are reached from a state and a source. -/
inductive Reaches (read : N → Except ε (ι × N)) (step : ι → σ → Except ε σ) (finished : σ → Bool)
    (s₀ : σ) (n₀ : N) : List ι → σ → N → Prop
  | start : Reaches read step finished s₀ n₀ [] s₀ n₀
  | pass (items : List ι) (s s' : σ) (n n' : N) (i : ι)
      (hd : Reaches read step finished s₀ n₀ items s n) (hs : finished s = false)
      (hread : read n = .ok (i, n')) (hstep : step i s = .ok s') :
      Reaches read step finished s₀ n₀ (items ++ [i]) s' n'

section Loop

variable {read : N → Except ε (ι × N)} {step : ι → σ → Except ε σ} {finished : σ → Bool}

/-- The loop returns exactly when it can take items, fewer than its bound,
    until the state is finished. -/
theorem feed_eq_ok_iff (stuck : ε) (fuel : Nat) (s s' : σ) (n n' : N) :
    feed stuck read step finished fuel s n = .ok (s', n') ↔
      ∃ items, Fed read step finished s n items s' n' ∧ items.length < fuel := by
  induction fuel generalizing s n with
  | zero =>
      constructor
      · intro h
        exact nomatch h
      · rintro ⟨items, -, hlen⟩
        omega
  | succ fuel ih =>
      rw [feed]
      cases hs : finished s with
      -- A finished state stops the loop before it reads.
      | true =>
          rw [if_pos rfl, Except.ok.injEq, Prod.mk.injEq]
          constructor
          · rintro ⟨rfl, rfl⟩
            exact ⟨[], Fed.stop s n hs, Nat.succ_pos fuel⟩
          · rintro ⟨items, hfed, -⟩
            cases hfed with
            | stop => exact ⟨rfl, rfl⟩
            | next _ s₁ _ _ n₁ _ i items hs' => exact nomatch hs.symm.trans hs'
      -- Otherwise one item is taken, and the loop goes on.
      | false =>
          rw [if_neg Bool.false_ne_true, bind_eq_ok_iff]
          constructor
          · rintro ⟨⟨i, n₁⟩, hread, hrest⟩
            rcases (bind_eq_ok_iff _ _ _).mp hrest with ⟨s₁, hstep, hloop⟩
            rcases (ih s₁ n₁).mp hloop with ⟨items, hfed, hlen⟩
            exact ⟨i :: items, Fed.next s s₁ s' n n₁ n' i items hs hread hstep hfed,
              Nat.succ_lt_succ hlen⟩
          · rintro ⟨items, hfed, hlen⟩
            cases hfed with
            | stop _ _ hs' => exact nomatch hs.symm.trans hs'
            | next _ s₁ _ _ n₁ _ i items _ hread hstep tl =>
                refine ⟨(i, n₁), hread, (bind_eq_ok_iff _ _ _).mpr ⟨s₁, hstep, ?_⟩⟩
                exact (ih s₁ n₁).mpr ⟨items, tl, Nat.lt_of_succ_lt_succ hlen⟩

/-- A head reached after a first pass. -/
theorem Reaches.after {s s₁ s' : σ} {n n₁ n' : N} {i : ι} {items : List ι}
    (hs : finished s = false) (hread : read n = .ok (i, n₁)) (hstep : step i s = .ok s₁)
    (h : Reaches read step finished s₁ n₁ items s' n') :
    Reaches read step finished s n (i :: items) s' n' := by
  induction h with
  | start => exact Reaches.pass [] s s₁ n n₁ i Reaches.start hs hread hstep
  | pass items s₂ s₃ n₂ n₃ j _ hs₂ hread₂ hstep₂ ih =>
      exact Reaches.pass (i :: items) s₂ s₃ n₂ n₃ j ih hs₂ hread₂ hstep₂

/-- A complete run ends at a head of the loop, with the state finished. -/
theorem Fed.reaches {s s' : σ} {n n' : N} {items : List ι}
    (h : Fed read step finished s n items s' n') :
    Reaches read step finished s n items s' n' ∧ finished s' = true := by
  induction h with
  | stop s n hs => exact ⟨Reaches.start, hs⟩
  | next s s₁ s' n n₁ n' i items hs hread hstep tl ih => exact ⟨ih.1.after hs hread hstep, ih.2⟩

/-- What holds at the start and is preserved by every pass, with the items
    taken so far in view, holds at every head of the loop. -/
theorem Reaches.invariant {Inv : List ι → σ → Prop} {s s' : σ} {n n' : N} {items : List ι}
    (h : Reaches read step finished s n items s' n') (hstart : Inv [] s)
    (hpass : ∀ before t i t', finished t = false → Inv before t → step i t = .ok t' →
      Inv (before ++ [i]) t') : Inv items s' := by
  induction h with
  | start => exact hstart
  | pass before t t' _ _ i _ ht _ hstep ih => exact hpass before t i t' ht ih hstep

theorem Delivers.concat {n n₁ n' : N} {i : ι} {items : List ι} (h : Delivers read n items n₁)
    (hread : read n₁ = .ok (i, n')) : Delivers read n (items ++ [i]) n' := by
  induction h with
  | nil n => exact Delivers.cons n n' n' i [] hread (Delivers.nil n')
  | cons n n₂ _ j items hd _ ih => exact Delivers.cons n n₂ n' j _ hd (ih hread)

/-- The items taken up to a head of the loop are what the source gave away. -/
theorem Reaches.delivers {s s' : σ} {n n' : N} {items : List ι}
    (h : Reaches read step finished s n items s' n') : Delivers read n items n' := by
  induction h with
  | start => exact Delivers.nil n
  | pass before _ _ _ _ _ _ _ hread _ ih => exact ih.concat hread

/-- What every read keeps of a source holds after the items are taken. -/
theorem Delivers.keeps {Inv : N → Prop} {n n' : N} {items : List ι}
    (h : Delivers read n items n')
    (hread : ∀ n i n', Inv n → read n = .ok (i, n') → Inv n') (hn : Inv n) : Inv n' := by
  induction h with
  | nil n => exact hn
  | cons n n₁ n' i items hd _ ih => exact ih (hread n i n₁ hn hd)

/-- One pass of the loop uses up one of its bound. -/
theorem feed_next (stuck : ε) {s s₁ : σ} {n n₁ : N} {i : ι} (hs : finished s = false)
    (hread : read n = .ok (i, n₁)) (hstep : step i s = .ok s₁) (fuel : Nat) :
    feed stuck read step finished (fuel + 1) s n = feed stuck read step finished fuel s₁ n₁ := by
  rw [feed, hs, if_neg Bool.false_ne_true, hread]
  change (step i s >>= fun s' => feed stuck read step finished fuel s' n₁) = _
  rw [hstep]
  rfl

/-- The loop goes on from a head as from its start. -/
theorem Reaches.feed_eq (stuck : ε) {s s' : σ} {n n' : N} {items : List ι}
    (h : Reaches read step finished s n items s' n') (fuel : Nat) :
    feed stuck read step finished (items.length + fuel) s n =
      feed stuck read step finished fuel s' n' := by
  induction h generalizing fuel with
  | start => rw [List.length_nil, Nat.zero_add]
  | pass items s₁ s' n₁ n' i _ hs hread hstep ih =>
      rw [List.length_append, List.length_singleton, Nat.add_assoc, ih, Nat.add_comm 1,
        feed_next stuck hs hread hstep]

/-- If the fold fails at a head of the loop, then that is what the loop comes
    to. -/
theorem feed_fails_at (stuck : ε) {s s' : σ} {n n' n₁ : N} {items : List ι} {i : ι} {e : ε}
    (h : Reaches read step finished s n items s' n') (hs : finished s' = false)
    (hread : read n' = .ok (i, n₁)) (hstep : step i s' = .error e) {fuel : Nat}
    (hfuel : items.length < fuel) : feed stuck read step finished fuel s n = .error e := by
  obtain ⟨more, rfl⟩ := Nat.exists_eq_add_of_lt hfuel
  rw [Nat.add_assoc, h.feed_eq, feed, hs, if_neg Bool.false_ne_true, hread]
  change (step i s' >>= fun t => feed stuck read step finished more t n₁) = _
  rw [hstep]
  rfl

/-- If every item costs the source something, a bound above what it has is
    never used up: any other such bound gives the same. -/
theorem feed_bound (stuck : ε) (cost : N → Nat)
    (hcost : ∀ n i n', read n = .ok (i, n') → cost n' < cost n) :
    ∀ (fuel fuel' : Nat) (s : σ) (n : N), cost n < fuel → cost n < fuel' →
      feed stuck read step finished fuel s n = feed stuck read step finished fuel' s n := by
  intro fuel
  induction fuel with
  | zero =>
      intro fuel' s n hfuel
      omega
  | succ fuel ih =>
      intro fuel' s n hfuel hfuel'
      obtain ⟨fuel', rfl⟩ := Nat.exists_eq_succ_of_ne_zero (Nat.ne_zero_of_lt hfuel')
      rw [feed, feed]
      cases finished s with
      | true => rfl
      | false =>
          cases hread : read n with
          | error e => rfl
          | ok pair =>
              change (step pair.1 s >>= _) = (step pair.1 s >>= _)
              cases step pair.1 s with
              | error e => rfl
              | ok s' =>
                  have hless := hcost n pair.1 pair.2 hread
                  exact ih fuel' s' pair.2 (by omega) (by omega)

/-- The loop fails only where its source or its fold does, at a head it
    reaches: a bound above what the source has is never used up. -/
theorem fails_feed {P : ε → Prop} (stuck : ε) (Inv : N → Prop) (cost : N → Nat) {s₀ : σ} {n₀ : N}
    (hread : ∀ n, Inv n → Fails P (read n))
    (hcost : ∀ n i n', Inv n → read n = .ok (i, n') → Inv n' ∧ cost n' < cost n)
    (hstep : ∀ items s n i n', Reaches read step finished s₀ n₀ items s n → finished s = false →
      read n = .ok (i, n') → Fails P (step i s)) :
    ∀ (fuel : Nat) (items : List ι) (s : σ) (n : N), Reaches read step finished s₀ n₀ items s n →
      Inv n → cost n < fuel → Fails P (feed stuck read step finished fuel s n) := by
  intro fuel
  induction fuel with
  | zero =>
      intro items s n _ _ hfuel
      omega
  | succ fuel ih =>
      intro items s n hreach hn hfuel
      rw [feed]
      cases hf : finished s with
      -- The loop returns.
      | true =>
          rw [if_pos rfl]
          exact fails_ok _
      | false =>
          rw [if_neg Bool.false_ne_true]
          refine Fails.bind (hread n hn) fun pair hpair =>
            Fails.bind (hstep items s n pair.1 pair.2 hreach hf hpair) fun s₁ hs₁ => ?_
          -- The source has less to give, and the bound decreases by one only.
          have hnext := hcost n pair.1 pair.2 hn hpair
          exact ih _ s₁ pair.2 (hreach.pass items s s₁ n pair.2 pair.1 hf hpair hs₁) hnext.1
            (by omega)

end Loop

end Wire
