import Mathlib.Data.List.Basic

/-! Programs that command a device and may stop with an error.

A program takes the device's state to a result and a state, and the state counts as
changed whether it returns or stops. `Scripted log m script` says what the program adds to
the log: a prefix of the script, and the whole script when it returns, whatever the device
answers; `Leaves` says it where that depends on the answers. `Avoids` says that a program does
not stop with an error, and `Extends` that it does not depend on how many turns its loops are
given. Each has a rule for every way programs are put together. -/
namespace FarmChain.Script

/-- `Except` with a state that survives an error. -/
abbrev Program (W E A : Type) := ExceptT E (StateM W) A

variable {W E A B C : Type}

/-- The result and the state afterwards. -/
def exec (m : Program W E A) (w : W) : Except E A × W := m w

@[simp] theorem exec_pure (a : A) (w : W) : exec (pure a : Program W E A) w = (.ok a, w) := rfl

@[simp] theorem exec_throw (e : E) (w : W) :
    exec (throw e : Program W E A) w = (.error e, w) := rfl

theorem exec_bind (m : Program W E A) (f : A → Program W E B) (w : W) :
    exec (m >>= f) w = match exec m w with
      | (.ok a, w') => exec (f a) w'
      | (.error e, w') => (.error e, w') := by
  show ExceptT.bindCont f (m w).1 (m w).2 = _
  unfold exec
  rcases m w with ⟨a | e, w'⟩
  · rfl
  · rfl

/-! ### Scripts -/

section
variable (log : W → List C)

/-- Whatever the state, what is added to the log is a prefix of the script, and all of it
when the program returns. -/
def Scripted (m : Program W E A) (script : List C) : Prop :=
  ∀ w, ∃ added, log (exec m w).2 = log w ++ added ∧ added <+: script ∧
    ∀ a, (exec m w).1 = .ok a → added = script

variable {log}

theorem scripted_pure (a : A) : Scripted log (pure a : Program W E A) [] := by
  intro w
  exact ⟨[], (List.append_nil _).symm, List.prefix_refl _, fun _ _ => rfl⟩

/-- A program that stops keeps to any script. -/
theorem scripted_throw (e : E) (script : List C) :
    Scripted log (throw e : Program W E A) script := by
  intro w
  refine ⟨[], (List.append_nil _).symm, List.nil_prefix, fun a h => ?_⟩
  cases h

theorem Scripted.bind {m : Program W E A} {f : A → Program W E B} {first rest : List C}
    (hm : Scripted log m first) (hf : ∀ a, Scripted log (f a) rest) :
    Scripted log (m >>= f) (first ++ rest) := by
  intro w
  obtain ⟨added, hlog, hadded, hok⟩ := hm w
  rw [exec_bind]
  rcases hexec : exec m w with ⟨e | a, w'⟩
  · rw [hexec] at hlog
    refine ⟨added, hlog, hadded.trans (List.prefix_append _ _), fun b h => ?_⟩
    cases h
  · rw [hexec] at hlog hok
    obtain ⟨added', hlog', hadded', hok'⟩ := hf a w'
    rw [hok a rfl] at hlog
    refine ⟨first ++ added', ?_, (List.prefix_append_right_inj first).mpr hadded', fun b h => ?_⟩
    · rw [hlog', hlog, List.append_assoc]
    · rw [hok' b h]

/-- A first line that adds nothing. -/
theorem Scripted.bind_silent {m : Program W E A} {f : A → Program W E B} {script : List C}
    (hm : Scripted log m []) (hf : ∀ a, Scripted log (f a) script) :
    Scripted log (m >>= f) script :=
  hm.bind hf

/-- One command after another. -/
theorem scripted_forM {I : Type} {f : I → Program W E PUnit} {script : I → List C} (l : List I)
    (h : ∀ i, Scripted log (f i) (script i)) : Scripted log (l.forM f) (l.flatMap script) := by
  induction l with
  | nil => exact scripted_pure _
  | cons i rest ih => exact (h i).bind fun _ => ih

/-- A step that leaves the log alone. -/
theorem scripted_silent {m : Program W E A} (h : ∀ w, log (exec m w).2 = log w) :
    Scripted log m [] := by
  intro w
  exact ⟨[], by rw [h, List.append_nil], List.prefix_refl _, fun _ _ => rfl⟩

/-- A step that adds one entry, whether it succeeds or not. -/
theorem scripted_single {m : Program W E A} {c : C} (h : ∀ w, log (exec m w).2 = log w ++ [c]) :
    Scripted log m [c] := by
  intro w
  exact ⟨[c], h w, List.prefix_refl _, fun _ _ => rfl⟩

end

/-! ### What a program adds

Where what is added depends on the answers, it is said together with how the program ends. -/

section
variable (log : W → List C)

/-- How the program ends, and what it added to the log, whatever the state. -/
def Leaves (m : Program W E A) (post : Except E A → List C → Prop) : Prop :=
  ∀ w, ∃ added, log (exec m w).2 = log w ++ added ∧ post (exec m w).1 added

/-- The program always returns. -/
def Returns (m : Program W E A) (post : A → List C → Prop) : Prop :=
  Leaves log m fun result added => ∃ a, result = .ok a ∧ post a added

variable {log}

theorem leaves_pure {a : A} {post : Except E A → List C → Prop} (h : post (.ok a) []) :
    Leaves log (pure a : Program W E A) post := by
  intro w
  exact ⟨[], (List.append_nil _).symm, h⟩

theorem leaves_throw {e : E} {post : Except E A → List C → Prop} (h : post (.error e) []) :
    Leaves log (throw e : Program W E A) post := by
  intro w
  exact ⟨[], (List.append_nil _).symm, h⟩

theorem Returns.bind {m : Program W E A} {f : A → Program W E B} {first : A → List C → Prop}
    {post : Except E B → List C → Prop} (hm : Returns log m first)
    (hf : ∀ a added, first a added →
      Leaves log (f a) fun result later => post result (added ++ later)) :
    Leaves log (m >>= f) post := by
  intro w
  obtain ⟨added, hlog, a, hok, hfirst⟩ := hm w
  obtain ⟨later, hlater, hpost⟩ := hf a added hfirst (exec m w).2
  have hexec : exec (m >>= f) w = exec (f a) (exec m w).2 := by
    rw [exec_bind]
    rcases h : exec m w with ⟨result, w'⟩
    rw [h] at hok
    rw [show result = .ok a from hok]
  rw [hexec]
  exact ⟨added ++ later, by rw [hlater, hlog, List.append_assoc], hpost⟩

theorem returns_pure {a : A} {post : A → List C → Prop} (h : post a []) :
    Returns log (pure a : Program W E A) post :=
  leaves_pure ⟨a, rfl, h⟩

theorem Returns.mono {m : Program W E A} {post post' : A → List C → Prop} (hm : Returns log m post)
    (h : ∀ a added, post a added → post' a added) : Returns log m post' := by
  intro w
  obtain ⟨added, hlog, a, hok, hpost⟩ := hm w
  exact ⟨added, hlog, a, hok, h a added hpost⟩

/-- One command after another. -/
theorem returns_forM {I : Type} {f : I → Program W E PUnit} {script : I → List C} (l : List I)
    (h : ∀ i ∈ l, Returns log (f i) fun _ added => added = script i) :
    Returns log (l.forM f) fun _ added => added = l.flatMap script := by
  induction l with
  | nil => exact returns_pure rfl
  | cons i rest ih =>
    refine (h i (List.mem_cons_self ..)).bind fun _ added hadded => ?_
    refine (ih fun j hj => h j (List.mem_cons_of_mem i hj)).mono fun _ later hlater => ?_
    rw [hadded, hlater, List.flatMap_cons]

/-- A loop that counts up, with an invariant of the value and of what was added. -/
theorem returns_foldlM_range {f : B → Nat → Program W E B} {inv : Nat → B → List C → Prop} {b : B}
    (n : Nat) (hinit : inv 0 b [])
    (hstep : ∀ i, i < n → ∀ b before, inv i b before →
      Returns log (f b i) fun b' added => inv (i + 1) b' (before ++ added)) :
    Returns log ((List.range n).foldlM f b) (inv n) := by
  induction n with
  | zero => exact returns_pure hinit
  | succ n ih =>
    rw [List.range_succ, List.foldlM_append]
    refine (ih fun i hi => hstep i (Nat.lt_succ_of_lt hi)).bind fun b before hbefore => ?_
    rw [List.foldlM_cons]
    refine (hstep n (Nat.lt_succ_self n) b before hbefore).bind fun b' added hadded => ?_
    refine returns_pure ?_
    rwa [List.append_nil]

end

/-! ### Errors that cannot occur -/

/-- From a state in `p` the program does not stop with `e`, and it returns within `q`. -/
def Avoids (p : W → Prop) (e : E) (m : Program W E A) (q : A → W → Prop) : Prop :=
  ∀ w, p w → (exec m w).1 ≠ .error e ∧ ∀ a, (exec m w).1 = .ok a → q a (exec m w).2

variable {p : W → Prop} {e : E}

theorem avoids_pure {q : A → W → Prop} {a : A} (h : ∀ w, p w → q a w) :
    Avoids p e (pure a : Program W E A) q := by
  intro w hw
  refine ⟨fun heq => ?_, fun b heq => ?_⟩
  · cases heq
  · cases heq
    exact h w hw

theorem avoids_throw {q : A → W → Prop} {e' : E} (h : e' ≠ e) :
    Avoids p e (throw e' : Program W E A) q := by
  intro w _
  refine ⟨fun heq => h (Except.error.inj heq), fun a heq => ?_⟩
  cases heq

theorem Avoids.bind {q : A → W → Prop} {r : B → W → Prop} {m : Program W E A}
    {f : A → Program W E B} (hm : Avoids p e m q) (hf : ∀ a, Avoids (q a) e (f a) r) :
    Avoids p e (m >>= f) r := by
  intro w hw
  obtain ⟨hstop, hok⟩ := hm w hw
  rw [exec_bind]
  rcases hexec : exec m w with ⟨e' | a, w'⟩
  · rw [hexec] at hstop
    refine ⟨fun h => hstop (congrArg Except.error (Except.error.inj h)), fun b h => ?_⟩
    cases h
  · rw [hexec] at hok
    exact hf a w' (hok a rfl)

theorem Avoids.mono {p' : W → Prop} {q q' : A → W → Prop} {m : Program W E A}
    (h : Avoids p e m q) (hp : ∀ w, p' w → p w) (hq : ∀ a w, q a w → q' a w) :
    Avoids p' e m q' := by
  intro w hw
  obtain ⟨hstop, hok⟩ := h w (hp w hw)
  exact ⟨hstop, fun a ha => hq a _ (hok a ha)⟩

/-- A fact of the state to start from that the states after it need not share. -/
theorem avoids_from {q : A → W → Prop} {m : Program W E A}
    (h : ∀ w, p w → Avoids (fun w' => w' = w) e m q) : Avoids p e m q :=
  fun w hw => h w hw w rfl

theorem avoids_forM {I : Type} {f : I → Program W E PUnit} (l : List I)
    (h : ∀ i, Avoids p e (f i) fun _ => p) : Avoids p e (l.forM f) fun _ => p := by
  induction l with
  | nil => exact avoids_pure fun _ hw => hw
  | cons i rest ih => exact (h i).bind fun _ => ih

/-! ### Turns of a loop

A loop is given so many turns and stops with `e` when they are used up. -/

/-- Unless the first program stops with `e`, the second does the same. -/
def Extends (e : E) (m m' : Program W E A) : Prop :=
  ∀ w, (exec m w).1 ≠ .error e → exec m' w = exec m w

theorem Extends.refl (m : Program W E A) : Extends e m m := fun _ _ => rfl

theorem extends_throw (m : Program W E A) : Extends e (throw e) m :=
  fun _ h => absurd rfl h

theorem Extends.bind {m m' : Program W E A} {f f' : A → Program W E B} (hm : Extends e m m')
    (hf : ∀ a, Extends e (f a) (f' a)) : Extends e (m >>= f) (m' >>= f') := by
  intro w hstop
  rw [exec_bind] at hstop ⊢
  rw [exec_bind]
  have hfirst : (exec m w).1 ≠ .error e := by
    intro h
    rcases hexec : exec m w with ⟨e' | a, w'⟩
    · rw [hexec] at hstop h
      exact hstop (congrArg Except.error (Except.error.inj h))
    · rw [hexec] at h
      cases h
  rw [hm w hfirst]
  rcases hexec : exec m w with ⟨e' | a, w'⟩
  · rfl
  · rw [hexec] at hstop
    exact hf a w' hstop

theorem extends_forM {I : Type} {f f' : I → Program W E PUnit} (l : List I)
    (h : ∀ i, Extends e (f i) (f' i)) : Extends e (l.forM f) (l.forM f') := by
  induction l with
  | nil => exact Extends.refl _
  | cons i rest ih => exact (h i).bind fun _ => ih

/-! ### A marker in a script of blocks -/

/-- A split at a marker is past what does not hold it. -/
theorem split_past {marker : C} {first rest before after : List C} (hfirst : marker ∉ first)
    (h : before ++ marker :: after = first ++ rest) :
    ∃ more, before = first ++ more ∧ more ++ marker :: after = rest := by
  rcases List.append_eq_append_iff.mp h with ⟨more, hmore, hrest⟩ | ⟨more, hmore, hrest⟩
  · cases more with
    | nil =>
      rw [List.append_nil] at hmore
      exact ⟨[], by rw [List.append_nil, hmore], hrest⟩
    | cons c more =>
      have hc : marker = c := (List.cons.inj hrest).1
      exact absurd (by rw [hmore, ← hc]; simp) hfirst
  · exact ⟨more, hmore, hrest.symm⟩

/-- Where every block holds the marker once, a split at a marker is a split within a block. -/
theorem split_at_marker {marker : C} {blocks : List (List C × List C)} {before after : List C}
    (hblocks : ∀ b ∈ blocks, marker ∉ b.1 ∧ marker ∉ b.2)
    (h : before ++ marker :: after = blocks.flatMap fun b => b.1 ++ marker :: b.2) :
    ∃ done b rest, blocks = done ++ b :: rest ∧
      before = (done.flatMap fun b => b.1 ++ marker :: b.2) ++ b.1 := by
  induction blocks generalizing before with
  | nil => simp at h
  | cons b rest ih =>
    obtain ⟨hload, htail⟩ := hblocks b (List.mem_cons_self ..)
    rw [List.flatMap_cons, List.append_assoc] at h
    obtain ⟨more, rfl, hmore⟩ := split_past hload h
    cases more with
    | nil => exact ⟨[], b, rest, rfl, List.append_nil _⟩
    | cons c more =>
      have hc : c = marker := (List.cons.inj hmore).1
      obtain ⟨later, rfl, hlater⟩ := split_past htail (List.cons.inj hmore).2
      obtain ⟨done, b', rest', rfl, rfl⟩ :=
        ih (fun b' hb' => hblocks b' (List.mem_cons_of_mem _ hb')) hlater
      refine ⟨b :: done, b', rest', rfl, ?_⟩
      rw [hc, List.flatMap_cons]
      simp only [List.append_assoc, List.cons_append]

end FarmChain.Script
