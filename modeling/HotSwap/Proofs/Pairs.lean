/-
Two acts side by side.

`a.Pairs R b V S` says that wherever `R` holds of two worlds, the act `a`, run in the
first, and the act `b`, run in the second, end alike: with values for which `V`
holds or with the same fault, and in worlds for which `S` holds.  The two worlds may
have hosts of different types.

* `Matched` — two ends that are alike;
* `Act.Pairs.bind`, `Act.Pairs.guarded`, `Act.Pairs.ensuring`, … — one rule for each way
  of building acts;
* `Act.Tracks` — acts that keep up one relation.

Design notes: a rule speaks of the same way of building on both sides, so a proof
follows the text of the act that both sides come from.
-/
import Mathlib.Tactic.Common
import HotSwap.Proofs.Ends

namespace HotSwap

/-- Two ends that are alike: both a value, with values for which `V` holds, or both the
same fault. -/
inductive Matched {ε α β : Type} (V : α → β → Prop) : Except ε α → Except ε β → Prop
  | ok {x : α} {y : β} (h : V x y) : Matched V (.ok x) (.ok y)
  | error (e : ε) : Matched V (.error e) (.error e)

namespace Matched

variable {ε α β : Type} {V V' : α → β → Prop}

theorem mono {r : Except ε α} {r' : Except ε β} (h : Matched V r r')
    (hV : ∀ x y, V x y → V' x y) : Matched V' r r' := by
  cases h with
  | ok h => exact .ok (hV _ _ h)
  | error e => exact .error e

theorem rfl {r : Except ε α} : Matched Eq r r := by
  cases r with
  | ok x => exact .ok (.refl x)
  | error e => exact .error e

theorem eq {r r' : Except ε α} (h : Matched Eq r r') : r = r' := by
  cases h with
  | ok h => exact congrArg _ h
  | error e => exact .refl _

theorem of_heq {r r' : Except ε α} (h : Matched (fun x y => HEq x y) r r') : r = r' :=
  (h.mono fun _ _ => eq_of_heq).eq

end Matched

namespace Act

variable {σ τ α β γ δ : Type} {R S T : World σ → World τ → Prop} {V V' : α → β → Prop}
  {a : Act σ α} {b : Act τ β} {w : World σ} {v : World τ}

/-- Wherever `R` holds, the acts end alike, and in worlds for which `S` holds. -/
def Pairs (R : World σ → World τ → Prop) (a : Act σ α) (b : Act τ β) (V : α → β → Prop)
    (S : World σ → World τ → Prop) : Prop :=
  ∀ ⦃w v⦄, R w v → Matched V (a.run w).1 (b.run v).1 ∧ S (a.run w).2 (b.run v).2

/-- The two ways in which paired acts end. -/
theorem Pairs.elim (h : Pairs R a b V S) (hwv : R w v) :
    (∃ x y w' v', a.run w = (.ok x, w') ∧ b.run v = (.ok y, v') ∧ V x y ∧ S w' v') ∨
      ∃ e w' v', a.run w = (.error e, w') ∧ b.run v = (.error e, v') ∧ S w' v' := by
  obtain ⟨hends, hS⟩ := h hwv
  rcases ha : a.run w with ⟨r, w'⟩
  rcases hb : b.run v with ⟨r', v'⟩
  rw [ha, hb] at hends hS
  cases hends with
  | ok hV => exact .inl ⟨_, _, _, _, rfl, rfl, hV, hS⟩
  | error e => exact .inr ⟨e, _, _, rfl, rfl, hS⟩

theorem Pairs.mono {R' S' : World σ → World τ → Prop} (h : Pairs R a b V S)
    (hR : ∀ w v, R' w v → R w v) (hV : ∀ x y, V x y → V' x y) (hS : ∀ w v, S w v → S' w v) :
    Pairs R' a b V' S' := fun w v hwv =>
  ⟨(h (hR w v hwv)).1.mono hV, hS _ _ (h (hR w v hwv)).2⟩

/-! ### Rules -/

theorem pairs_pure {x : α} {y : β} (hV : V x y) (hS : ∀ w v, R w v → S w v) :
    Pairs R (pure x) (pure y) V S := fun w v hwv => ⟨.ok hV, hS w v hwv⟩

theorem pairs_ofExcept {r : Except Fault α} {r' : Except Fault β} (hr : Matched V r r')
    (hS : ∀ w v, R w v → S w v) : Pairs R (ofExcept r) (ofExcept r') V S :=
  fun w v hwv => ⟨hr, hS w v hwv⟩

theorem pairs_raise (e : Fault) (hS : ∀ w v, R w v → S w v) :
    Pairs R (raise e : Act σ α) (raise e : Act τ β) V S := fun w v hwv => ⟨.error e, hS w v hwv⟩

theorem pairs_look {f : World σ → α} {g : World τ → β}
    (h : ∀ w v, R w v → V (f w) (g v) ∧ S w v) : Pairs R (look f) (look g) V S :=
  fun w v hwv => ⟨.ok (h w v hwv).1, (h w v hwv).2⟩

theorem pairs_change {f : World σ → World σ} {g : World τ → World τ}
    (h : ∀ w v, R w v → S (f w) (g v)) : Pairs R (change f) (change g) Eq S :=
  fun w v hwv => ⟨.ok rfl, h w v hwv⟩

theorem pairs_choose {f : σ → α × σ} {g : τ → β × τ}
    (h : ∀ w v, R w v → V (f w.host).1 (g v.host).1 ∧
      S { w with host := (f w.host).2 } { v with host := (g v.host).2 }) :
    Pairs R (Link.choose f) (Link.choose g) V S :=
  fun w v hwv => ⟨.ok (h w v hwv).1, (h w v hwv).2⟩

/-- Sequencing; a fault of the first part ends in `S`, which has to do for the whole. -/
theorem Pairs.bind {f : α → Act σ γ} {g : β → Act τ δ} {V' : γ → δ → Prop}
    (h : Pairs R a b V S) (hS : ∀ w v, S w v → T w v)
    (hf : ∀ x y, V x y → Pairs S (f x) (g y) V' T) : Pairs R (a >>= f) (b >>= g) V' T := by
  intro w v hwv
  show Matched V' (a.next f w).1 (b.next g v).1 ∧ T (a.next f w).2 (b.next g v).2
  unfold next
  rcases h.elim hwv with ⟨x, y, w', v', ha, hb, hxy, hwv'⟩ | ⟨e, w', v', ha, hb, hwv'⟩
  · rw [show a w = _ from ha, show b v = _ from hb]
    exact hf x y hxy hwv'
  · rw [show a w = _ from ha, show b v = _ from hb]
    exact ⟨.error e, hS w' v' hwv'⟩

theorem Pairs.outcome (h : Pairs R a b V S) : Pairs R a.outcome b.outcome (Matched V) S :=
  fun _ _ hwv => ⟨.ok (h hwv).1, (h hwv).2⟩

theorem Pairs.guarded (h : Pairs R a b V S) : Pairs R a.guarded b.guarded (Matched V) S := by
  intro w v hwv
  unfold Act.run Act.guarded
  rcases h.elim hwv with ⟨x, y, w', v', ha, hb, hxy, hwv'⟩ | ⟨e, w', v', ha, hb, hwv'⟩
  · rw [show a w = _ from ha, show b v = _ from hb]
    exact ⟨.ok (.ok hxy), hwv'⟩
  · rw [show a w = _ from ha, show b v = _ from hb]
    dsimp only
    split
    · exact ⟨.error e, hwv'⟩
    · exact ⟨.ok (.error e), hwv'⟩

theorem Pairs.rescue (h : Pairs R a b V S) : Pairs R a.rescue b.rescue (Matched V) S := by
  intro w v hwv
  unfold Act.run Act.rescue
  rcases h.elim hwv with ⟨x, y, w', v', ha, hb, hxy, hwv'⟩ | ⟨e, w', v', ha, hb, hwv'⟩
  · rw [show a w = _ from ha, show b v = _ from hb]
    exact ⟨.ok (.ok hxy), hwv'⟩
  · rw [show a w = _ from ha, show b v = _ from hb]
    cases e with
    | system refusal => exact ⟨.ok (.error refusal), hwv'⟩
    | _ => exact ⟨.error _, hwv'⟩

theorem Pairs.ensuring {after : Act σ Unit} {after' : Act τ Unit} (h : Pairs R a b V S)
    (hafter : Pairs S after after' Eq T) :
    Pairs R (a.ensuring after) (b.ensuring after') V T := by
  intro w v hwv
  obtain ⟨hends, hS⟩ := h hwv
  unfold Act.run at *
  unfold Act.ensuring
  rcases hr : a w with ⟨r, w'⟩
  rcases hr' : b v with ⟨r', v'⟩
  rw [hr, hr'] at hends hS
  rcases hafter.elim hS with ⟨_, _, w'', v'', ha, hb, -, hT⟩ | ⟨e, w'', v'', ha, hb, hT⟩
  · dsimp only
    rw [show after w' = _ from ha, show after' v' = _ from hb]
    exact ⟨hends, hT⟩
  · dsimp only
    rw [show after w' = _ from ha, show after' v' = _ from hb]
    exact ⟨.error e, hT⟩

theorem Pairs.noted {entry entry' : Option Fault → Disk → Entry} (h : Pairs R a b V S)
    (hS : ∀ failure w v, S w v →
      T (w.enter (entry failure w.disk)) (v.enter (entry' failure v.disk))) :
    Pairs R (a.noted entry) (b.noted entry') V T := by
  intro w v hwv
  unfold Act.run Act.noted
  rcases h.elim hwv with ⟨x, y, w', v', ha, hb, hxy, hwv'⟩ | ⟨e, w', v', ha, hb, hwv'⟩
  · rw [show a w = _ from ha, show b v = _ from hb]
    exact ⟨.ok hxy, hS none w' v' hwv'⟩
  · rw [show a w = _ from ha, show b v = _ from hb]
    exact ⟨.error e, hS (some e) w' v' hwv'⟩

theorem Pairs.exchange {r r' : Request} {a : Act σ r.Answer} {b : Act τ r'.Answer}
    {V : r.Answer → r'.Answer → Prop}
    (hR : ∀ w v, R w v → S (w.enter (.asked r)) (v.enter (.asked r'))) (h : Pairs S a b V S)
    (hT : ∀ answer answer' w v, Matched V answer answer' → S w v →
      T (w.enter (.answered r answer)) (v.enter (.answered r' answer'))) :
    Pairs R (Act.exchange r a) (Act.exchange r' b) V T := by
  intro w v hwv
  obtain ⟨hends, hS⟩ := h (hR w v hwv)
  exact ⟨hends, hT _ _ _ _ hends hS⟩

/-! ### Keeping up one relation -/

/-- Wherever `R` holds, the acts end alike, and `R` still holds. -/
def Tracks (R : World σ → World τ → Prop) (a : Act σ α) (b : Act τ β) (V : α → β → Prop) : Prop :=
  Pairs R a b V R

theorem Tracks.pairs (h : Tracks R a b V) : Pairs R a b V R := h

theorem Tracks.mono (h : Tracks R a b V) (hV : ∀ x y, V x y → V' x y) : Tracks R a b V' :=
  Pairs.mono h (fun _ _ => id) hV fun _ _ => id

theorem tracks_pure {x : α} {y : β} (hV : V x y) : Tracks R (pure x) (pure y) V :=
  pairs_pure hV fun _ _ => id

theorem tracks_raise (e : Fault) : Tracks R (raise e : Act σ α) (raise e : Act τ β) V :=
  pairs_raise e fun _ _ => id

theorem tracks_look {f : World σ → α} {g : World τ → β} (h : ∀ w v, R w v → V (f w) (g v)) :
    Tracks R (look f) (look g) V :=
  pairs_look fun w v hwv => ⟨h w v hwv, hwv⟩

/-- What is looked up may differ, as long as what follows goes alike. -/
theorem tracks_look_bind {f : World σ → γ} {g : World τ → δ} {k : γ → Act σ α} {k' : δ → Act τ β}
    (h : ∀ w v, R w v → Tracks R (k (f w)) (k' (g v)) V) :
    Tracks R (look f >>= k) (look g >>= k') V :=
  fun w v hwv => h w v hwv hwv

theorem Tracks.bind {f : α → Act σ γ} {g : β → Act τ δ} {V' : γ → δ → Prop}
    (h : Tracks R a b V) (hf : ∀ x y, V x y → Tracks R (f x) (g y) V') :
    Tracks R (a >>= f) (b >>= g) V' :=
  Pairs.bind h (fun _ _ => id) hf

/-- Sequencing, where the second part keeps up what the first part ends in. -/
theorem Pairs.track {f : α → Act σ γ} {g : β → Act τ δ} {V' : γ → δ → Prop}
    (h : Pairs R a b V S) (hf : ∀ x y, V x y → Tracks S (f x) (g y) V') :
    Pairs R (a >>= f) (b >>= g) V' S :=
  h.bind (fun _ _ => id) hf

/-- Sequencing after equal values. -/
theorem Tracks.then {b : Act τ α} {f : α → Act σ γ} {g : α → Act τ δ} {V' : γ → δ → Prop}
    (h : Tracks R a b Eq) (hf : ∀ x, Tracks R (f x) (g x) V') :
    Tracks R (a >>= f) (b >>= g) V' :=
  h.bind fun x _ hxy => hxy ▸ hf x

theorem Tracks.outcome (h : Tracks R a b V) : Tracks R a.outcome b.outcome (Matched V) :=
  Pairs.outcome h

theorem Tracks.guarded (h : Tracks R a b V) : Tracks R a.guarded b.guarded (Matched V) :=
  Pairs.guarded h

theorem Tracks.rescue (h : Tracks R a b V) : Tracks R a.rescue b.rescue (Matched V) :=
  Pairs.rescue h

/-- An act whose ordinary faults are caught, and what follows on equal values or equal
faults. -/
theorem Tracks.caught {b : Act τ α} {f : Except Fault α → Act σ γ} {g : Except Fault α → Act τ δ}
    {V' : γ → δ → Prop} (h : Tracks R a b Eq) (hf : ∀ r, Tracks R (f r) (g r) V') :
    Tracks R (a.guarded >>= f) (b.guarded >>= g) V' :=
  h.guarded.bind fun r _ hr => hr.eq ▸ hf r

end Act
end HotSwap
