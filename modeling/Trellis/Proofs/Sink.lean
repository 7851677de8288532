import Trellis.Diagnostic.Sink

/-!
# What a sink keeps

Tracing changes only what is written. Adding diagnostics puts them behind those that are there, and sets
the error flag if one of them is an error; the flag is never taken back.
-/

namespace Trellis.Sink

@[simp] theorem diagnostics_write (s : Sink) (e : Entry) :
    (s.write e).diagnostics = s.diagnostics := rfl

@[simp] theorem hadError_write (s : Sink) (e : Entry) : (s.write e).hadError = s.hadError := rfl

@[simp] theorem diagnostics_trace (s : Sink) (part message : String) :
    (s.trace part message).diagnostics = s.diagnostics := by
  unfold trace
  split <;> rfl

@[simp] theorem hadError_trace (s : Sink) (part message : String) :
    (s.trace part message).hadError = s.hadError := by
  unfold trace
  split <;> rfl

theorem trace_of_stamp_eq_none {s : Sink} (h : s.stamp = none) (part message : String) :
    s.trace part message = s := by
  unfold trace
  rw [h]

@[simp] theorem diagnostics_add (s : Sink) (d : Diagnostic) :
    (s.add d).diagnostics = s.diagnostics ++ [d] := by
  simp only [add, writeHeadline]
  split <;> simp

@[simp] theorem diagnostics_addAll (s : Sink) (ds : List Diagnostic) :
    (s.addAll ds).diagnostics = s.diagnostics ++ ds := by
  unfold addAll
  induction ds generalizing s with
  | nil => simp
  | cons d ds ih => simp [ih]

@[simp] theorem hadError_add (s : Sink) (d : Diagnostic) :
    (s.add d).hadError = (s.hadError || d.isError) := by
  simp only [add, writeHeadline]
  split <;> simp

@[simp] theorem hadError_addAll (s : Sink) (ds : List Diagnostic) :
    (s.addAll ds).hadError = (s.hadError || ds.any (·.isError)) := by
  unfold addAll
  induction ds generalizing s with
  | nil => simp
  | cons d ds ih => simp [ih, Bool.or_assoc]

end Trellis.Sink
