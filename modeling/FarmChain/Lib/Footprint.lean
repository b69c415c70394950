import FarmChain.Lib.Run

/-! Steps with footprints.

A state is looked at cell by cell, and every event says which cells it reads and which it
writes. A machine keeps to these footprints (`Local`) when a step changes no other cell and
what it does depends on no other cell. Events of which neither writes what the other touches
can then swap places (`Local.swap`), and runs that differ by such swaps end in the same cells
and give out the same, event by event (`Local.reorder`). -/
namespace FarmChain

/-- The cells an event reads, and those it writes. -/
structure Footprint (E C : Type) where
  reads : E → C → Prop
  writes : E → C → Prop

namespace Footprint
open Run

variable {S E A C V : Type} (F : Footprint E C)

def Touches (e : E) (c : C) : Prop := F.reads e c ∨ F.writes e c

/-- Neither writes what the other touches. -/
def Independent (e e' : E) : Prop :=
  (∀ c, F.writes e c → ¬F.Touches e' c) ∧ ∀ c, F.writes e' c → ¬F.Touches e c

/-- The machine keeps to the footprints. -/
structure Local (step : S → E → S) (out : S → E → A) (look : S → C → V) : Prop where
  frame : ∀ s e c, ¬F.writes e c → look (step s e) c = look s c
  answer : ∀ s t e, (∀ c, F.Touches e c → look s c = look t c) → out s e = out t e
  effect : ∀ s t e, (∀ c, F.Touches e c → look s c = look t c) →
    ∀ c, F.writes e c → look (step s e) c = look (step t e) c

/-- Runs that differ by swaps of neighbours. -/
inductive Reorders (independent : E → E → Prop) : List E → List E → Prop
  | refl (es : List E) : Reorders independent es es
  | swap (before after : List E) {e e' : E} (h : independent e e') :
    Reorders independent (before ++ e :: e' :: after) (before ++ e' :: e :: after)
  | trans {a b c : List E} (first : Reorders independent a b) (rest : Reorders independent b c) :
    Reorders independent a c

/-- The events of a run, each with what it gave out. -/
def transcript (step : S → E → S) (out : S → E → A) (s : S) (es : List E) : List (E × A) :=
  emits step (fun s e => some (e, out s e)) s es

theorem Reorders.perm {independent : E → E → Prop} {es es' : List E}
    (h : Reorders independent es es') : es.Perm es' := by
  induction h with
  | refl es => exact List.Perm.refl es
  | swap before after _ => exact (List.Perm.swap _ _ after).symm.append_left before
  | trans _ _ ih ih' => exact ih.trans ih'

theorem Reorders.mono {independent independent' : E → E → Prop}
    (hle : ∀ e e', independent e e' → independent' e e') {es es' : List E}
    (h : Reorders independent es es') : Reorders independent' es es' := by
  induction h with
  | refl es => exact .refl es
  | swap before after hind => exact .swap before after (hle _ _ hind)
  | trans _ _ ih ih' => exact ih.trans ih'

theorem Independent.symm {F : Footprint E C} {e e' : E} (h : F.Independent e e') :
    F.Independent e' e :=
  ⟨h.2, h.1⟩

/-- Events that touch no cell in common. -/
theorem independent_of_disjoint {F : Footprint E C} {e e' : E}
    (h : ∀ c, F.Touches e c → ¬F.Touches e' c) : F.Independent e e' :=
  ⟨fun c hw => h c (.inr hw), fun c hw ht => h c ht (.inr hw)⟩

namespace Local

variable {F} {step : S → E → S} {out : S → E → A} {look : S → C → V}

/-- States that look alike go on alike. -/
theorem congr (hF : F.Local step out look) {s t : S} (h : look s = look t) (e : E) :
    look (step s e) = look (step t e) ∧ out s e = out t e := by
  have hagree : ∀ c, F.Touches e c → look s c = look t c := fun c _ => congrFun h c
  refine ⟨funext fun c => ?_, hF.answer s t e hagree⟩
  by_cases hwrites : F.writes e c
  · exact hF.effect s t e hagree c hwrites
  · rw [hF.frame s e c hwrites, hF.frame t e c hwrites]
    exact congrFun h c

/-- What an event touches, an independent one leaves. -/
theorem untouched (hF : F.Local step out look) {e e' : E} (h : F.Independent e e') (s : S) (c : C)
    (hc : F.Touches e c) : look (step s e') c = look s c :=
  hF.frame s e' c fun hwrites => h.2 c hwrites hc

/-- **Independent events swap places**: the cells end up the same, and each gives out what it
would have given out in the other's place. -/
theorem swap (hF : F.Local step out look) {e e' : E} (h : F.Independent e e') (s : S) :
    look (step (step s e) e') = look (step (step s e') e) ∧ out (step s e) e' = out s e' ∧
      out (step s e') e = out s e := by
  have he := hF.untouched h s
  have he' := hF.untouched h.symm s
  refine ⟨funext fun c => ?_, hF.answer _ _ e' he', hF.answer _ _ e he⟩
  by_cases hwrites : F.writes e c
  · have hother : ¬F.writes e' c := fun hw => h.1 c hwrites (.inr hw)
    rw [hF.frame _ e' c hother]
    exact hF.effect _ _ e (fun c hc => (he c hc).symm) c hwrites
  · rw [hF.frame _ e c hwrites]
    by_cases hwrites' : F.writes e' c
    · exact hF.effect _ _ e' he' c hwrites'
    · rw [hF.frame _ e' c hwrites', hF.frame s e c hwrites, hF.frame s e' c hwrites']

/-- A run from states that look alike. -/
theorem run_congr (hF : F.Local step out look) {s t : S} (h : look s = look t) (es : List E) :
    look (run step s es) = look (run step t es) ∧
      transcript step out s es = transcript step out t es := by
  induction es generalizing s t with
  | nil => exact ⟨h, rfl⟩
  | cons e rest ih =>
    obtain ⟨hnext, hout⟩ := hF.congr h e
    obtain ⟨hlook, hrest⟩ := ih hnext
    refine ⟨hlook, ?_⟩
    show (e, out s e) :: transcript step out (step s e) rest =
      (e, out t e) :: transcript step out (step t e) rest
    rw [hout, hrest]

/-- **The order of independent events does not show**: the cells end up the same, and every
event gives out the same. -/
theorem reorder (hF : F.Local step out look) {es es' : List E}
    (h : Reorders F.Independent es es') (s : S) :
    look (run step s es) = look (run step s es') ∧
      (transcript step out s es).Perm (transcript step out s es') := by
  induction h with
  | refl es => exact ⟨rfl, List.Perm.refl _⟩
  | swap before after hind =>
    rename_i e e'
    obtain ⟨hlook, hout', hout⟩ := hF.swap hind (run step s before)
    obtain ⟨hend, hrest⟩ := hF.run_congr hlook after
    rw [run_append, run_append]
    refine ⟨hend, ?_⟩
    unfold transcript
    rw [emits_append, emits_append]
    refine List.Perm.append_left _ ?_
    show ((e, out _ e) :: (e', out _ e') :: transcript step out _ after).Perm
      ((e', out _ e') :: (e, out _ e) :: transcript step out _ after)
    rw [hout', hout, hrest]
    exact List.Perm.swap _ _ _
  | trans _ _ ih ih' => exact ⟨ih.1.trans ih'.1, ih.2.trans ih'.2⟩

end Local
end Footprint
end FarmChain
