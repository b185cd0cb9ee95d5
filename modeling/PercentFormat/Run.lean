import PercentFormat.Event

/-!
# Runs

A run is a computation that reports events and ends in a result or a failure.  What was reported
before a failure stays reported, so the log stands beside the outcome and not inside it.

## Main definitions

* `Run α`: the events of a computation, in order, and its outcome
* `Run.report`, `Run.fail`: report an event; fail, reporting the failure if it is one to report
-/

namespace PercentFormat

/-- The events a computation has reported, and how it ended. -/
structure Run (α : Type) where
  /-- What was reported, first to last. -/
  events : List Event
  /-- The result, or the failure. -/
  outcome : Except FormatError α

namespace Run

variable {α β : Type}

/-- The run that reports nothing and ends in `a`. -/
protected def pure (a : α) : Run α :=
  ⟨[], .ok a⟩

/-- Runs `x` and, if it has a result, `f` on it. -/
protected def bind (x : Run α) (f : α → Run β) : Run β :=
  match x.outcome with
  | .ok a => ⟨x.events ++ (f a).events, (f a).outcome⟩
  | .error e => ⟨x.events, .error e⟩

instance : Monad Run where
  pure := Run.pure
  bind := Run.bind

/-- Reports one event. -/
def report (e : Event) : Run Unit :=
  ⟨[e], .ok ()⟩

/-- Fails, reporting the failure if it is one to report. -/
def fail (e : FormatError) : Run α :=
  ⟨(Event.ofError? e).toList, .error e⟩

/-- The text a run ends in; none if it fails. -/
def text (x : Run (List Char)) : List Char :=
  x.outcome.toOption.getD []

theorem text_of_ok {x : Run (List Char)} {s : List Char} (h : x.outcome = .ok s) :
    x.text = s := by
  rw [text, h]
  rfl

/-! ## Events and outcome of the parts -/

@[simp] theorem events_pure (a : α) : (pure a : Run α).events = [] := rfl

@[simp] theorem outcome_pure (a : α) : (pure a : Run α).outcome = .ok a := rfl

@[simp] theorem events_report (e : Event) : (report e).events = [e] := rfl

@[simp] theorem outcome_report (e : Event) : (report e).outcome = .ok () := rfl

@[simp] theorem events_fail (e : FormatError) :
    (fail e : Run α).events = (Event.ofError? e).toList := rfl

@[simp] theorem outcome_fail (e : FormatError) : (fail e : Run α).outcome = .error e := rfl

theorem bind_of_ok {x : Run α} {a : α} (h : x.outcome = .ok a) (f : α → Run β) :
    x >>= f = ⟨x.events ++ (f a).events, (f a).outcome⟩ := by
  show Run.bind x f = _
  simp only [Run.bind, h]

theorem bind_of_error {x : Run α} {e : FormatError} (h : x.outcome = .error e)
    (f : α → Run β) : x >>= f = ⟨x.events, .error e⟩ := by
  show Run.bind x f = _
  simp only [Run.bind, h]

/-- Two runs that begin alike are alike if they go on alike from every result. -/
theorem bind_congr {x : Run α} {g h : α → Run β}
    (hgh : ∀ a, x.outcome = .ok a → g a = h a) : x >>= g = x >>= h := by
  cases hx : x.outcome with
  | ok a => rw [bind_of_ok hx, bind_of_ok hx, hgh a hx]
  | error e => rw [bind_of_error hx, bind_of_error hx]

/-- The outcome of a run in two parts is that of its parts, whatever they reported. -/
@[simp] theorem outcome_bind (x : Run α) (f : α → Run β) :
    (x >>= f).outcome = x.outcome >>= fun a => (f a).outcome := by
  cases h : x.outcome with
  | ok a => rw [bind_of_ok h]; rfl
  | error e => rw [bind_of_error h]; rfl

instance : LawfulMonad Run := LawfulMonad.mk' Run
  (by
    rintro α ⟨events, outcome⟩
    cases outcome <;> simp [Functor.map, Run.bind, Run.pure])
  (by
    intro α β a f
    simp [Bind.bind, Pure.pure, Run.bind, Run.pure])
  (by
    rintro α β γ ⟨events, outcome⟩ f g
    cases outcome with
    | error e => simp [Bind.bind, Run.bind]
    | ok a =>
      simp only [Bind.bind, Run.bind]
      cases (f a).outcome <;> simp)

@[simp] theorem outcome_map (g : α → β) (x : Run α) :
    (g <$> x).outcome = g <$> x.outcome := by
  rw [map_eq_pure_bind, outcome_bind, map_eq_pure_bind]
  rfl

end Run

end PercentFormat
