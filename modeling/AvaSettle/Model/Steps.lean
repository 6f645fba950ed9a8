import AvaSettle.Async.Session
import AvaSettle.Model.Frame

/-!
# The operations of a call that is made alone

While a call waits only the world moves by itself. What such moves and an operation do is described by
a relation between worlds, and each rule gives the relation to the world before it.
-/

namespace AvaSettle
open Async

/-- A relation between worlds that holds however the world moves by itself. -/
structure Steady (chain : Chain → Chain → Prop) (R : World → World → Prop) : Prop where
  refl : ∀ w, R w w
  trans : ∀ {w₁ w₂ w₃}, R w₁ w₂ → R w₂ w₃ → R w₁ w₃
  env : ∀ {w w'}, World.Env chain w w' → R w w'

section
variable {chain : Chain → Chain → Prop} {R : World → World → Prop} {entry : Method Unit → Prop}
  {cond : Hist Api → World → Event Api → Prop} {w w' : World} {h : Hist Api} {c : Call} {α : Type}

/-- What others leave alone is steady. -/
lemma Steady.of_alone (steady : Steady chain R) (move : (machine chain entry cond).Alone h w w') :
    R w w' :=
  Machine.Alone.keeps (I := R w) (fun _ _ step holds => steady.trans holds (steady.env step)) move
    (steady.refl w)

/-- An operation that the relation allows, whatever becomes of it. -/
lemma Steady.leads (steady : Steady chain R)
    (keep : ∀ {w w' b}, World.exec c w = some (b, w') → R w w') {K : World → Hist Api → Prop}
    (next : ∀ o w₁, R w w₁ → K w₁ (h ++ [⟨c, o⟩])) :
    (machine chain entry cond).Leads (machine chain entry cond).Alone c (fun _ => K) w h := by
  intro w₁ o w₂ move reply _
  have before := steady.of_alone move
  cases o with
  | done b => exact next _ w₂ (steady.trans before (keep reply))
  | refused e =>
    obtain ⟨-, rfl⟩ := reply
    exact next _ w₂ before
  | lost b e => exact next _ w₂ (steady.trans before (keep reply.1))

/-- An operation that the relation allows, and that may fail. -/
lemma Steady.wp_request (steady : Steady chain R)
    (keep : ∀ {w w' b}, World.exec c w = some (b, w') → R w w') {Q : End Api World c.Res}
    (error : ∀ e w₁ h₁, R w w₁ → Q (.error e) w₁ h₁)
    (next : ∀ w₁ b w₂, R w w₁ → R w w₂ → World.exec c w₁ = some (b, w₂) →
      Q (.ok b) w₂ (h ++ [⟨c, .done b⟩])) :
    (machine chain entry cond).wp (machine chain entry cond).Alone (request c) Q w h := by
  refine Machine.wp_await fun w₁ o w₂ move reply _ => ?_
  have before := steady.of_alone move
  cases o with
  | done b => exact next w₁ b w₂ before (steady.trans before (keep reply)) reply
  | refused e =>
    obtain ⟨-, rfl⟩ := reply
    exact error e w₂ _ before
  | lost b e => exact error e w₂ _ (steady.trans before (keep reply.1))

/-- An operation that the relation allows, and that may fail, with what follows it. -/
lemma Steady.wp (steady : Steady chain R)
    (keep : ∀ {w w' b}, World.exec c w = some (b, w') → R w w') {f : c.Res → Method α}
    {Q : End Api World α} (error : ∀ e w₁ h₁, R w w₁ → Q (.error e) w₁ h₁)
    (next : ∀ w₁ b w₂, R w w₁ → R w w₂ → World.exec c w₁ = some (b, w₂) →
      (machine chain entry cond).wp (machine chain entry cond).Alone (f b) Q w₂
        (h ++ [⟨c, .done b⟩])) :
    (machine chain entry cond).wp (machine chain entry cond).Alone (request c >>= f) Q w h :=
  Machine.wp_bind (steady.wp_request keep error next)

end

end AvaSettle
