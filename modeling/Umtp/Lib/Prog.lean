import Mathlib.Logic.Relation

namespace Umtp.Lib

-- A program is a tree of commands. Each command waits for its answer, and the
-- rest of the program depends on that answer only.
inductive Prog (C : Type) (A : C → Type) (α : Type) where
  | ret (value : α)
  | call (command : C) (next : A command → Prog C A α)

namespace Prog

variable {C : Type} {A : C → Type} {α β γ ω : Type}

def bind : Prog C A α → (α → Prog C A β) → Prog C A β
  | .ret value, rest => rest value
  | .call command next, rest => .call command fun answer => (next answer).bind rest

instance : Monad (Prog C A) where
  pure := .ret
  bind := bind

-- One command on its own.
def perform (command : C) : Prog C A (A command) :=
  .call command .ret

end Prog

-- A handler gives a command its answer and the state after it.
abbrev Handler (C : Type) (A : C → Type) (ω : Type) : Type :=
  (command : C) → ω → A command × ω

namespace Prog

variable {C : Type} {A : C → Type} {α β γ ω : Type}

def exec (h : Handler C A ω) : Prog C A α → ω → α × ω
  | .ret value, w => (value, w)
  | .call command next, w => exec h (next (h command w).1) (h command w).2

-- The commands a run issues, each with the state it is issued in.
def trace (h : Handler C A ω) : Prog C A α → ω → List (ω × C)
  | .ret _, _ => []
  | .call command next, w => (w, command) :: trace h (next (h command w).1) (h command w).2

@[simp] theorem pure_eq (value : α) : (pure value : Prog C A α) = .ret value := rfl

@[simp] theorem ret_bind (value : α) (f : α → Prog C A β) :
    (ret value : Prog C A α).bind f = f value := rfl

theorem bind_assoc (p : Prog C A α) (f : α → Prog C A β) (g : β → Prog C A γ) :
    (p.bind f).bind g = p.bind fun value => (f value).bind g := by
  induction p with
  | ret value => rfl
  | call command next ih => exact congrArg (Prog.call command) (funext ih)

@[simp] theorem bind_eq (p : Prog C A α) (f : α → Prog C A β) : p >>= f = p.bind f := rfl

variable (h : Handler C A ω)

@[simp] theorem exec_ret (value : α) (w : ω) :
    exec h (.ret value : Prog C A α) w = (value, w) := rfl

@[simp] theorem exec_call (command : C) (next : A command → Prog C A α) (w : ω) :
    exec h (.call command next) w = exec h (next (h command w).1) (h command w).2 := rfl

@[simp] theorem exec_perform (command : C) (w : ω) :
    exec h (perform command) w = h command w := rfl

@[simp] theorem exec_bind (p : Prog C A α) (f : α → Prog C A β) (w : ω) :
    exec h (p.bind f) w = exec h (f (exec h p w).1) (exec h p w).2 := by
  induction p generalizing w with
  | ret value => rfl
  | call command next ih => exact ih _ _

@[simp] theorem trace_ret (value : α) (w : ω) : trace h (.ret value : Prog C A α) w = [] := rfl

@[simp] theorem trace_perform (command : C) (w : ω) :
    trace h (perform command) w = [(w, command)] := rfl

@[simp] theorem trace_bind (p : Prog C A α) (f : α → Prog C A β) (w : ω) :
    trace h (p.bind f) w = trace h p w ++ trace h (f (exec h p w).1) (exec h p w).2 := by
  induction p generalizing w with
  | ret value => rfl
  | call command next ih => exact congrArg ((w, command) :: ·) (ih _ _)

-- Every command of the run is allowed in the state it is issued in.
def Safe (ok : ω → C → Prop) (p : Prog C A α) (w : ω) : Prop :=
  ∀ step ∈ trace h p w, ok step.1 step.2

variable {h} {ok : ω → C → Prop}

theorem safe_bind (p : Prog C A α) (f : α → Prog C A β) (w : ω) :
    Safe h ok (p.bind f) w ↔
      Safe h ok p w ∧ Safe h ok (f (exec h p w).1) (exec h p w).2 := by
  simp only [Safe, trace_bind, List.mem_append, or_imp, forall_and]

theorem safe_perform (command : C) (w : ω) : Safe h ok (perform command) w ↔ ok w command := by
  simp [Safe]

-- The run issues the command.
def Issues (h : Handler C A ω) (command : C) (p : Prog C A α) (w : ω) : Prop :=
  ∃ v, (v, command) ∈ trace h p w

theorem issues_bind {c : C} (p : Prog C A α) (f : α → Prog C A β) (w : ω) :
    Issues h c (p.bind f) w ↔ Issues h c p w ∨ Issues h c (f (exec h p w).1) (exec h p w).2 := by
  simp only [Issues, trace_bind, List.mem_append, exists_or]

theorem not_issues_ret {c : C} (value : α) (w : ω) : ¬Issues h c (.ret value : Prog C A α) w := by
  simp [Issues]

theorem issues_perform {c : C} (command : C) (w : ω) : Issues h c (perform command) w ↔
    c = command := by
  simp [Issues]

theorem not_issues_of_safe {c : C} {p : Prog C A α} {w : ω} (hs : Safe h ok p w)
    (hc : ∀ v, ¬ok v c) : ¬Issues h c p w :=
  fun ⟨v, hv⟩ => hc v (hs _ hv)

-- A property that every allowed command keeps holds after a safe run.
theorem exec_keeps {I : ω → Prop} (hstep : ∀ w command, I w → ok w command → I (h command w).2)
    (p : Prog C A α) (w : ω) (hs : Safe h ok p w) (hi : I w) : I (exec h p w).2 := by
  induction p generalizing w with
  | ret value => exact hi
  | call command next ih =>
      have hc : ok w command := hs _ (List.mem_cons_self)
      exact ih _ _ (fun step hm => hs step (List.mem_cons_of_mem _ hm)) (hstep w command hi hc)

-- It also holds in every state in which a command is issued.
theorem trace_keeps {I : ω → Prop} (hstep : ∀ w command, I w → ok w command → I (h command w).2)
    (p : Prog C A α) (w : ω) (hs : Safe h ok p w) (hi : I w) :
    ∀ step ∈ trace h p w, I step.1 := by
  induction p generalizing w with
  | ret value => simp
  | call command next ih =>
      have hc : ok w command := hs _ (List.mem_cons_self)
      intro step hm
      rcases List.mem_cons.mp hm with rfl | hm
      · exact hi
      · exact ih _ _ (fun step hm => hs step (List.mem_cons_of_mem _ hm)) (hstep w command hi hc)
          step hm

-- A handler that keeps a note of what it does.
def observe (h : Handler C A ω) (note : (command : C) → ω → A command → γ → γ) :
    Handler C A (ω × γ) :=
  fun command s => ((h command s.1).1, (h command s.1).2, note command s.1 (h command s.1).1 s.2)

-- The note changes nothing.
theorem exec_observe (note : (command : C) → ω → A command → γ → γ) (p : Prog C A α)
    (s : ω × γ) :
    (exec (observe h note) p s).1 = (exec h p s.1).1 ∧
      (exec (observe h note) p s).2.1 = (exec h p s.1).2 := by
  induction p generalizing s with
  | ret value => exact ⟨rfl, rfl⟩
  | call command next ih => exact ih _ _

-- What a program does whatever the state it runs in, as long as the answers meet
-- R: it issues commands of S only, and ends with a value of Q.
def Runs (R : (command : C) → A command → Prop) (S : C → Prop) (Q : α → Prop) :
    Prog C A α → Prop
  | .ret value => Q value
  | .call command next => S command ∧ ∀ answer, R command answer → Runs R S Q (next answer)

-- Only the commands count.
def Uses (R : (command : C) → A command → Prop) (S : C → Prop) (p : Prog C A α) : Prop :=
  Runs R S (fun _ => True) p

section Runs

variable {R R' : (command : C) → A command → Prop} {S S' : C → Prop} {Q Q' : α → Prop}
  {p : Prog C A α} {f : α → Prog C A β}

@[simp] theorem runs_ret (value : α) : Runs R S Q (.ret value : Prog C A α) ↔ Q value := Iff.rfl

theorem runs_bind {Q' : β → Prop} (hp : Runs R S Q p)
    (hf : ∀ value, Q value → Runs R S Q' (f value)) :
    Runs R S Q' (p >>= f) := by
  induction p with
  | ret value => exact hf value hp
  | call command next ih => exact ⟨hp.1, fun answer hr => ih answer (hp.2 answer hr)⟩

theorem runs_weaken (hp : Runs R S Q p) (hs : ∀ command, S command → S' command)
    (hr : ∀ command answer, R' command answer → R command answer)
    (hq : ∀ value, Q value → Q' value) : Runs R' S' Q' p := by
  induction p with
  | ret value => exact hq value hp
  | call command next ih =>
      exact ⟨hs command hp.1, fun answer ha => ih answer (hp.2 answer (hr command answer ha))⟩

theorem uses_pure (value : α) : Uses R S (pure value : Prog C A α) := trivial

theorem uses_bind (hp : Uses R S p) (hf : ∀ value, Uses R S (f value)) : Uses R S (p >>= f) :=
  runs_bind hp fun value _ => hf value

attribute [grind ←] uses_pure uses_bind

-- The value of the first part meets Q in the second one.
theorem uses_bind_of (hp : Runs R S Q p) (hf : ∀ value, Q value → Uses R S (f value)) :
    Uses R S (p >>= f) :=
  runs_bind hp hf

theorem uses_mono (hp : Uses R S p) (hs : ∀ command, S command → S' command) : Uses R S' p :=
  runs_weaken hp hs (fun _ _ hr => hr) fun _ hq => hq

-- Whatever is answered, the commands are of S and what they keep is kept.
theorem uses_trace (hp : Uses (fun _ _ => True) S p) (h : Handler C A ω) (w : ω) :
    ∀ step ∈ trace h p w, S step.2 := by
  induction p generalizing w with
  | ret value => exact fun step hm => absurd hm List.not_mem_nil
  | call command next ih =>
      intro step hm
      rcases List.mem_cons.mp hm with rfl | hm
      · exact hp.1
      · exact ih _ (hp.2 _ trivial) _ step hm

theorem runs_value (hp : Runs (fun _ _ => True) S Q p) (h : Handler C A ω) (w : ω) :
    Q (exec h p w).1 := by
  induction p generalizing w with
  | ret value => exact hp
  | call command next ih => exact ih _ (hp.2 _ trivial) _

theorem uses_exec {I : ω → Prop} (hp : Uses (fun _ _ => True) S p) {h : Handler C A ω}
    (hstep : ∀ w command, S command → I w → I (h command w).2) {w : ω} (hi : I w) :
    I (exec h p w).2 := by
  induction p generalizing w with
  | ret value => exact hi
  | call command next ih => exact ih _ (hp.2 _ trivial) (hstep w command hp.1 hi)

end Runs

-- From a state satisfying P the run is safe and ends with Q.
def Valid (h : Handler C A ω) (ok : ω → C → Prop) (P : ω → Prop) (p : Prog C A α)
    (Q : α → ω → Prop) : Prop :=
  ∀ w, P w → Safe h ok p w ∧ Q (exec h p w).1 (exec h p w).2

variable {P P' : ω → Prop} {Q Q' : α → ω → Prop}

theorem valid_ret {value : α} (hq : ∀ w, P w → Q value w) :
    Valid h ok P (.ret value : Prog C A α) Q :=
  fun w hw => ⟨by simp [Safe], hq w hw⟩

theorem valid_perform {command : C} {Q : A command → ω → Prop} (hok : ∀ w, P w → ok w command)
    (hq : ∀ w, P w → Q (h command w).1 (h command w).2) :
    Valid h ok P (perform command) Q :=
  fun w hw => ⟨by simpa [Safe] using hok w hw, hq w hw⟩

theorem valid_bind {p : Prog C A α} {f : α → Prog C A β} {R : β → ω → Prop}
    (hp : Valid h ok P p Q) (hf : ∀ value, Valid h ok (Q value) (f value) R) :
    Valid h ok P (p.bind f) R := by
  intro w hw
  obtain ⟨hs, hq⟩ := hp w hw
  obtain ⟨hs', hr⟩ := hf _ _ hq
  exact ⟨(safe_bind p f w).mpr ⟨hs, hs'⟩, by simpa using hr⟩

theorem valid_weaken {p : Prog C A α} (hp : Valid h ok P p Q) (hpre : ∀ w, P' w → P w)
    (hpost : ∀ value w, Q value w → Q' value w) : Valid h ok P' p Q' :=
  fun w hw => ⟨(hp w (hpre w hw)).1, hpost _ _ (hp w (hpre w hw)).2⟩

theorem valid_safe {p : Prog C A α} (hp : Valid h ok P p Q) {w : ω} (hw : P w) :
    Safe h ok p w :=
  (hp w hw).1

-- What holds of the precondition alone may be assumed.
theorem valid_of_fact {p : Prog C A α} {fact : Prop} (hfact : ∀ w, P w → fact)
    (hp : fact → Valid h ok P p Q) : Valid h ok P p Q :=
  fun w hw => hp (hfact w hw) w hw

-- A program whose commands keep I, and give answers of R in the states of I.
theorem valid_of_runs {R : (command : C) → A command → Prop} {S : C → Prop} {I : ω → Prop}
    {Q : α → Prop} {p : Prog C A α} (hp : Runs R S Q p)
    (hstep : ∀ w command, I w → S command →
      ok w command ∧ R command (h command w).1 ∧ I (h command w).2) :
    Valid h ok I p fun value w => Q value ∧ I w := by
  induction p with
  | ret value => exact fun w hw => ⟨by simp [Safe], hp, hw⟩
  | call command next ih =>
      intro w hw
      obtain ⟨hok, hr, hi⟩ := hstep w command hw hp.1
      obtain ⟨hs, hq⟩ := ih _ (hp.2 _ hr) _ hi
      refine ⟨?_, hq⟩
      intro step hm
      rcases List.mem_cons.mp hm with rfl | hm
      · exact hok
      · exact hs step hm

-- The same, where an answer outside R spoils the state for good.
theorem valid_of_runs_unless {R : (command : C) → A command → Prop} {S : C → Prop}
    {bad I : ω → Prop} {Q : α → Prop} {p : Prog C A α} (hp : Runs R S Q p)
    (hbad : ∀ w command, bad w → ok w command ∧ bad (h command w).2)
    (hstep : ∀ w command, I w → S command → ok w command ∧
      (bad (h command w).2 ∨ R command (h command w).1 ∧ I (h command w).2)) :
    Valid h ok (fun w => bad w ∨ I w) p fun value w => bad w ∨ Q value ∧ I w := by
  have hspoiled : ∀ (p : Prog C A α) w, bad w → Safe h ok p w ∧ bad (exec h p w).2 := by
    intro p
    induction p with
    | ret value => exact fun w hw => ⟨by simp [Safe], hw⟩
    | call command next ih =>
        intro w hw
        obtain ⟨hs, hb⟩ := ih (h command w).1 _ (hbad w command hw).2
        refine ⟨fun step hm => ?_, hb⟩
        rcases List.mem_cons.mp hm with rfl | hm
        · exact (hbad w command hw).1
        · exact hs step hm
  intro w hw
  rcases hw with hw | hw
  · exact ⟨(hspoiled p w hw).1, Or.inl (hspoiled p w hw).2⟩
  induction p generalizing w with
  | ret value => exact ⟨by simp [Safe], Or.inr ⟨hp, hw⟩⟩
  | call command next ih =>
      obtain ⟨hok, hnext⟩ := hstep w command hw hp.1
      have hrest : Safe h ok (next (h command w).1) (h command w).2 ∧
          (bad (exec h (next (h command w).1) (h command w).2).2 ∨
            Q (exec h (next (h command w).1) (h command w).2).1 ∧
              I (exec h (next (h command w).1) (h command w).2).2) := by
        rcases hnext with hb | ⟨hr, hi⟩
        · exact ⟨(hspoiled _ _ hb).1, Or.inl (hspoiled _ _ hb).2⟩
        · exact ih _ (hp.2 _ hr) _ hi
      refine ⟨fun step hm => ?_, hrest.2⟩
      rcases List.mem_cons.mp hm with rfl | hm
      · exact hok
      · exact hrest.1 step hm

-- A run from a state satisfying P ends with Q, if it is safe.
def Ensures (h : Handler C A ω) (ok : ω → C → Prop) (P : ω → Prop) (p : Prog C A α)
    (Q : α → ω → Prop) : Prop :=
  ∀ w, P w → Safe h ok p w → Q (exec h p w).1 (exec h p w).2

theorem ensures_ret {value : α} (hq : ∀ w, P w → Q value w) :
    Ensures h ok P (.ret value : Prog C A α) Q :=
  fun w hw _ => hq w hw

theorem ensures_perform {command : C} {Q : A command → ω → Prop}
    (hq : ∀ w, P w → ok w command → Q (h command w).1 (h command w).2) :
    Ensures h ok P (perform command) Q :=
  fun w hw hs => hq w hw ((safe_perform command w).mp hs)

theorem ensures_bind {p : Prog C A α} {f : α → Prog C A β} {R : β → ω → Prop}
    (hp : Ensures h ok P p Q) (hf : ∀ value, Ensures h ok (Q value) (f value) R) :
    Ensures h ok P (p.bind f) R := by
  intro w hw hs
  obtain ⟨hsp, hsf⟩ := (safe_bind p f w).mp hs
  have hr := hf _ _ (hp w hw hsp) hsf
  simpa using hr

theorem ensures_weaken {p : Prog C A α} (hp : Ensures h ok P p Q) (hpre : ∀ w, P' w → P w)
    (hpost : ∀ value w, Q value w → Q' value w) : Ensures h ok P' p Q' :=
  fun w hw hs => hpost _ _ (hp w (hpre w hw) hs)

theorem ensures_of_fact {p : Prog C A α} {fact : Prop} (hfact : ∀ w, P w → fact)
    (hp : fact → Ensures h ok P p Q) : Ensures h ok P p Q :=
  fun w hw => hp (hfact w hw) w hw

theorem ensures_or {p : Prog C A α} (hp : Ensures h ok P p Q) (hp' : Ensures h ok P' p Q) :
    Ensures h ok (fun w => P w ∨ P' w) p Q :=
  fun w hw => hw.elim (hp w) (hp' w)

-- The first part runs in one state.
theorem ensures_bind_at {p : Prog C A α} {f : α → Prog C A β} {R : β → ω → Prop} {w : ω}
    (hf : Ensures h ok (· = (exec h p w).2) (f (exec h p w).1) R) :
    Ensures h ok (· = w) (p.bind f) R := by
  rintro w' rfl hs
  rw [exec_bind]
  exact hf _ rfl ((safe_bind p f _).mp hs).2

theorem ensures_of_exists {ι : Type} {P : ι → ω → Prop} {p : Prog C A α}
    (hp : ∀ i, Ensures h ok (P i) p Q) : Ensures h ok (fun w => ∃ i, P i w) p Q :=
  fun w ⟨i, hi⟩ => hp i w hi

-- A program whose commands keep I, and give answers of R, when they are allowed.
theorem ensures_of_runs {R : (command : C) → A command → Prop} {S : C → Prop} {I : ω → Prop}
    {Q : α → Prop} {p : Prog C A α} (hp : Runs R S Q p)
    (hstep : ∀ w command, I w → S command → ok w command →
      R command (h command w).1 ∧ I (h command w).2) :
    Ensures h ok I p fun value w => Q value ∧ I w := by
  induction p with
  | ret value => exact fun w hw _ => ⟨hp, hw⟩
  | call command next ih =>
      intro w hw hs
      have hok : ok w command := hs _ List.mem_cons_self
      obtain ⟨hr, hi⟩ := hstep w command hw hp.1 hok
      exact ih _ (hp.2 _ hr) _ hi fun step hm => hs step (List.mem_cons_of_mem _ hm)

-- The commands of such a run are of S.
theorem safe_of_runs {R : (command : C) → A command → Prop} {S : C → Prop} {I : ω → Prop}
    {Q : α → Prop} {p : Prog C A α} (hp : Runs R S Q p)
    (hstep : ∀ w command, I w → S command → ok w command →
      R command (h command w).1 ∧ I (h command w).2) {w : ω} (hw : I w) (hs : Safe h ok p w) :
    Safe h (fun _ command => S command) p w := by
  induction p generalizing w with
  | ret value => exact fun step hm => absurd hm List.not_mem_nil
  | call command next ih =>
      have hok : ok w command := hs _ List.mem_cons_self
      obtain ⟨hr, hi⟩ := hstep w command hw hp.1 hok
      have hrest := ih _ (hp.2 _ hr) hi fun step hm => hs step (List.mem_cons_of_mem _ hm)
      intro step hm
      rcases List.mem_cons.mp hm with rfl | hm
      · exact hp.1
      · exact hrest step hm

end Prog

end Umtp.Lib
