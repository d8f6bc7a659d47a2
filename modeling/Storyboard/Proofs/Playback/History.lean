/-!
# Histories

What the entries of a log say about those before them. `Since` speaks of the last time that
something happened, `Throughout` of every entry and what stands before it. A log grows at its end,
so both have a lemma for logs that are appended to.
-/

namespace Storyboard

namespace History

variable {α : Type} {log marks : List α}

/-- Some entry opens, and every entry after it keeps. -/
def Since (opens keeps : α → Prop) (log : List α) : Prop :=
  ∃ before m after, log = before ++ m :: after ∧ opens m ∧ ∀ n ∈ after, keeps n

theorem Since.append {opens keeps : α → Prop} (h : Since opens keeps log)
    (kept : ∀ n ∈ marks, keeps n) : Since opens keeps (log ++ marks) := by
  obtain ⟨before, m, after, rfl, opened, held⟩ := h
  refine ⟨before, m, after ++ marks, by simp, opened, ?_⟩
  intro n member
  rcases List.mem_append.mp member with old | new
  · exact held n old
  · exact kept n new

theorem Since.opened {opens keeps : α → Prop} (log : List α) {m : α} (opened : opens m) :
    Since opens keeps (log ++ [m]) :=
  ⟨log, m, [], rfl, opened, by simp⟩

/-- Every entry of the rest suits what stands before it. -/
def Throughout (suits : List α → α → Prop) : List α → List α → Prop
  | _, [] => True
  | before, m :: rest => suits before m ∧ Throughout suits (before ++ [m]) rest

variable {suits : List α → α → Prop}

theorem throughout_append {before : List α} :
    Throughout suits before (log ++ marks) ↔
      Throughout suits before log ∧ Throughout suits (before ++ log) marks := by
  induction log generalizing before with
  | nil => simp [Throughout]
  | cons m rest ih => simp [Throughout, ih, and_assoc]

theorem Throughout.apply {before after : List α} {m : α}
    (h : Throughout suits [] (before ++ m :: after)) : suits before m := by
  obtain ⟨_, fits, _⟩ := throughout_append.mp h
  exact fits

end History

end Storyboard
