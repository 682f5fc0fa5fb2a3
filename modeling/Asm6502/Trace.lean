/-!
# Traces

A trace runs a step function along a list and keeps what every step reports.
-/

namespace Asm6502

variable {σ α β : Type}

/-- Run `step` along a list from a state, with the reports of earlier steps at hand. -/
def traceFrom (step : σ → α → σ × β) : σ → Array β → List α → σ × Array β
  | state, reports, [] => (state, reports)
  | state, reports, item :: items =>
    let (state, report) := step state item
    traceFrom step state (reports.push report) items

/-- Run `step` along a list from a state: the last state and the report of each step. -/
def trace (step : σ → α → σ × β) (state : σ) (items : List α) : σ × List β :=
  let (state, reports) := traceFrom step state #[] items
  (state, reports.toList)

/-- Earlier reports stand before the others. -/
theorem traceFrom_eq (step : σ → α → σ × β) (state : σ) (reports : Array β) (items : List α) :
    traceFrom step state reports items =
      ((traceFrom step state #[] items).1, reports ++ (traceFrom step state #[] items).2) := by
  induction items generalizing state reports with
  | nil => simp [traceFrom]
  | cons item items ih =>
    simp only [traceFrom]
    rw [ih _ (reports.push _), ih _ (#[].push _)]
    simp

@[simp] theorem trace_nil (step : σ → α → σ × β) (state : σ) : trace step state [] = (state, []) :=
  rfl

/-- A trace of a list starts with the step at its head. -/
theorem trace_cons (step : σ → α → σ × β) (state : σ) (item : α) (items : List α) :
    trace step state (item :: items) =
      ((trace step (step state item).1 items).1,
        (step state item).2 :: (trace step (step state item).1 items).2) := by
  simp only [trace, traceFrom]
  rw [traceFrom_eq step _ (#[].push _)]
  simp

/-- A trace of two lists is the trace of the second after that of the first. -/
theorem trace_append (step : σ → α → σ × β) (state : σ) (first second : List α) :
    trace step state (first ++ second) =
      ((trace step (trace step state first).1 second).1,
        (trace step state first).2 ++ (trace step (trace step state first).1 second).2) := by
  induction first generalizing state with
  | nil => simp
  | cons item items ih => simp [trace_cons, ih]

/-- A trace has one report for each item. -/
@[simp] theorem length_trace (step : σ → α → σ × β) (state : σ) (items : List α) :
    (trace step state items).2.length = items.length := by
  induction items generalizing state with
  | nil => rfl
  | cons item items ih => simp [trace_cons, ih]

end Asm6502
