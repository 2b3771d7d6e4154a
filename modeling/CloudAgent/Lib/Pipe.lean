import Mathlib.Data.List.Infix

/-! A buffer between a reader and a writer, with the history of what went in and out. What is in the
buffer is what has not come out yet, so no byte is lost, doubled or reordered. -/
namespace CloudAgent

/-- A first-in first-out buffer. `input` and `output` are histories. -/
structure Pipe (α : Type*) where
  input : List α := []
  output : List α := []
  buffer : List α := []
  law : input = output ++ buffer := by rfl

namespace Pipe
variable {α : Type*} (p : Pipe α)

/-- The pipe through which nothing has gone. -/
def empty : Pipe α := {}

/-- New data at the end of the buffer. -/
@[simps]
def insert (l : List α) : Pipe α where
  input := p.input ++ l
  output := p.output
  buffer := p.buffer ++ l
  law := by rw [p.law, List.append_assoc]

/-- The first `n` elements of the buffer are taken out. -/
@[simps]
def erase (n : ℕ) : Pipe α where
  input := p.input
  output := p.output ++ p.buffer.take n
  buffer := p.buffer.drop n
  law := by rw [p.law, List.append_assoc, List.take_append_drop]

theorem output_prefix : p.output <+: p.input := ⟨p.buffer, p.law.symm⟩

/-- Everything came out if nothing is left. -/
theorem output_eq_input_iff : p.output = p.input ↔ p.buffer = [] := by
  rw [p.law]
  exact List.self_eq_append_right

end Pipe
end CloudAgent
