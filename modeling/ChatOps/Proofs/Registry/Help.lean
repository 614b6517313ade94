/-
The help of a registry that registration made: a line for each of its commands, in the order of
their lowercase names, with the descriptions one below the other. The column is counted in octets
and the usages are padded in characters; as no text has more characters than octets, no usage
reaches into the column.
-/
import ChatOps.Proofs.Registry.History
import ChatOps.Registry.Help
import Mathlib.Data.List.Forall2
import Mathlib.Order.Bounds.Basic

namespace ChatOps

open Text

/-! ## Widths -/

/-- Every character takes an octet or more. -/
theorem length_le_utf8ByteSize (s : String) : s.length ≤ s.utf8ByteSize := by
  obtain ⟨cs, rfl⟩ : ∃ cs, s = String.ofList cs := ⟨s.toList, String.ofList_toList.symm⟩
  rw [String.length_ofList]
  induction cs with
  | nil => simp
  | cons c cs ih =>
    have hc := c.utf8Size_pos
    rw [String.ofList_cons, String.utf8ByteSize_append, String.utf8ByteSize_singleton,
      List.length_cons]
    omega

/-- A text of blanks. -/
def spaces (n : Nat) : String := String.ofList (List.replicate n ' ')

theorem padRight_eq (width : Nat) (s : String) :
    padRight width s = s ++ spaces (width - s.length) := by
  rw [padRight, spaces, String.ofList_append, String.ofList_toList, String.length_toList]

theorem spaces_add (m n : Nat) : spaces (m + n) = spaces m ++ spaces n := by
  rw [spaces, spaces, spaces, ← String.ofList_append, List.replicate_append_replicate]

namespace Registry

variable {r : Registry} {c : Command}

/-- The width is that of the longest usage. -/
theorem isGreatest_usageWidth (h : r.toList ≠ []) :
    IsGreatest {n | ∃ c ∈ r.toList, c.usage.utf8ByteSize = n} r.usageWidth := by
  have hmax : (r.toList.map fun c => c.usage.utf8ByteSize).max? = some r.usageWidth := by
    cases hm : (r.toList.map fun c => c.usage.utf8ByteSize).max? with
    | none =>
      rw [List.max?_eq_none_iff, List.map_eq_nil_iff] at hm
      exact absurd hm h
    | some n => rw [usageWidth, List.foldl_max, hm, Option.getD_some, Nat.zero_max]
  obtain ⟨hmem, hle⟩ := List.max?_eq_some_iff.1 hmax
  refine ⟨List.mem_map.1 hmem, ?_⟩
  rintro n ⟨c, hc, rfl⟩
  exact hle _ (List.mem_map_of_mem hc)

theorem length_usage_le (h : c ∈ r.toList) : c.usage.length ≤ r.usageWidth := by
  calc c.usage.length ≤ c.usage.utf8ByteSize := length_le_utf8ByteSize c.usage
    _ ≤ r.usageWidth := (isGreatest_usageWidth (List.ne_nil_of_mem h)).2 ⟨c, h, rfl⟩

/-! ## Lines -/

/-- The line shows the command: its usage, at least two blanks, and its description at this
column. -/
def IsHelpLine (column : Nat) (c : Command) (line : String) : Prop :=
  ∃ gap, 2 ≤ gap ∧ c.usage.length + gap = column ∧ line = c.usage ++ spaces gap ++ c.description

theorem isHelpLine_of_le {width : Nat} (h : c.usage.length ≤ width) :
    IsHelpLine (width + 2) c (padRight width c.usage ++ "  " ++ c.description) := by
  refine ⟨width - c.usage.length + 2, by omega, by omega, ?_⟩
  rw [padRight_eq, spaces_add, ← String.append_assoc]
  rfl

/-- The help of a registry. It has a line for each command that look-up finds, and one more for each
that is registered, in increasing order of the lowercase names; each line is the usage of its
command, two blanks or more, and the description, and all the descriptions start at one column, the
octets of the longest usage and two more. -/
theorem helpLines_aligned (hr : r.Reachable) :
    (∀ c, c ∈ r.toList ↔ r.lookup c.name = .ok c) ∧
    (∀ c r', r.register c = .ok r' → r'.toList.Perm (c :: r.toList)) ∧
    r.toList.Pairwise (fun a b => lowercase a.name < lowercase b.name) ∧
    List.Forall₂ (IsHelpLine (r.usageWidth + 2)) r.toList r.helpLines ∧
    (r.toList ≠ [] →
      IsGreatest {n | ∃ c ∈ r.toList, c.usage.utf8ByteSize = n} r.usageWidth) := by
  refine ⟨fun c => ?_, fun c r' => toList_register_perm, hr.wf.pairwise_toList, ?_,
    isGreatest_usageWidth⟩
  · rw [hr.wf.lookup_eq_ok_iff]
    exact (and_iff_left rfl).symm
  · rw [helpLines, List.forall₂_map_right_iff, List.forall₂_same]
    intro c hc
    exact isHelpLine_of_le (length_usage_le hc)

/-- A usage with letters of two octets, which sets the column. -/
theorem helpLines_aligned_size :
    let size : Command := ⟨"größe", "Show a size", [], [⟨"query", .query⟩], .reject⟩
    let r := empty.afterCalls [Builtin.version, size]
    r.Reachable ∧ r.usageWidth = 15 ∧ List.Forall₂ (IsHelpLine 17) r.toList r.helpLines := by
  intro size r
  have hr : r.Reachable := Reachable.empty.afterCalls _
  have hwidth : r.usageWidth = 15 := by decide +kernel
  obtain ⟨-, -, -, hlines, -⟩ := helpLines_aligned hr
  rw [hwidth] at hlines
  exact ⟨hr, hwidth, hlines⟩

end Registry

end ChatOps
