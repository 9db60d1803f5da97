import AgentHalo.Lib.Words

/-!
# Lines of a file

What `BufRead::lines` yields: the text between line feeds, a carriage return before a line feed cut off, and the text
after the last line feed when there is any (`unterminated`). A text that ends in a line feed can be continued: its lines
stay as they are and the lines of the continuation follow.
-/

namespace AgentHalo.Lines

def stripCr (line : List Char) : List Char := if line.getLast? = some '\r' then line.dropLast else line

/-- The lines of the text, the first of them already read up to here. -/
def linesFrom : List Char → List Char → List (List Char)
  | line, [] => if line = [] then [] else [line]
  | line, c :: rest => if c = '\n' then stripCr line :: linesFrom [] rest else linesFrom (line ++ [c]) rest

def lines (text : List Char) : List (List Char) := linesFrom [] text

def unterminated (text : List Char) : List Char := (text.reverse.takeWhile (· ≠ '\n')).reverse

def terminated (text : List Char) : List Char := (text.reverse.dropWhile (· ≠ '\n')).reverse

theorem terminated_append_unterminated (text : List Char) : terminated text ++ unterminated text = text := by
  unfold terminated unterminated
  rw [← List.reverse_append, List.takeWhile_append_dropWhile, List.reverse_reverse]

theorem not_mem_unterminated (text : List Char) : '\n' ∉ unterminated text := by
  intro h
  have hne := List.all_eq_true.mp List.all_takeWhile _ (List.mem_reverse.mp h)
  simp at hne

theorem terminated_cases (text : List Char) : terminated text = [] ∨ ∃ front, terminated text = front ++ ['\n'] := by
  unfold terminated
  cases hdrop : text.reverse.dropWhile (· ≠ '\n') with
  | nil => exact .inl rfl
  | cons c rest =>
    have hhead := List.head?_dropWhile_not (· ≠ '\n') text.reverse
    rw [hdrop] at hhead
    obtain rfl : c = '\n' := by simpa using hhead
    exact .inr ⟨rest.reverse, by simp⟩

variable {text line : List Char} {ls : List (List Char)}

theorem linesFrom_of_not_mem (line : List Char) (h : '\n' ∉ text) :
    linesFrom line text = if line ++ text = [] then [] else [line ++ text] := by
  induction text generalizing line with
  | nil => rw [linesFrom, List.append_nil]
  | cons c rest ih =>
    have hc : c ≠ '\n' := fun hc => h (hc ▸ List.mem_cons_self)
    rw [linesFrom, if_neg hc, ih _ (List.not_mem_of_not_mem_cons h)]
    simp

theorem linesFrom_append_newline (h : '\n' ∉ text) (rest : List Char) :
    linesFrom line (text ++ '\n' :: rest) = stripCr (line ++ text) :: linesFrom [] rest := by
  induction text generalizing line with
  | nil => rw [List.nil_append, linesFrom, if_pos rfl, List.append_nil]
  | cons c tail ih =>
    have hc : c ≠ '\n' := fun hc => h (hc ▸ List.mem_cons_self)
    rw [List.cons_append, linesFrom, if_neg hc, ih (List.not_mem_of_not_mem_cons h)]
    simp

theorem linesFrom_append_terminated (line front rest : List Char) :
    linesFrom line (front ++ '\n' :: rest) = linesFrom line (front ++ ['\n']) ++ linesFrom [] rest := by
  induction front generalizing line with
  | nil =>
    rw [List.nil_append, List.nil_append, linesFrom, if_pos rfl, linesFrom, if_pos rfl, linesFrom, if_pos rfl]
    rfl
  | cons c tail ih =>
    rw [List.cons_append, List.cons_append, linesFrom, linesFrom]
    split
    · rw [ih]
      rfl
    · exact ih _

theorem lines_append (text rest : List Char) :
    lines (text ++ rest) = lines (terminated text) ++ lines (unterminated text ++ rest) := by
  conv_lhs => rw [← terminated_append_unterminated text, List.append_assoc]
  obtain hnil | ⟨front, hfront⟩ := terminated_cases text
  · rw [hnil]
    rfl
  · unfold lines
    rw [hfront, List.append_assoc, List.singleton_append, linesFrom_append_terminated]

/-! ### Written lines -/

def written (ls : List (List Char)) : List Char := ls.flatMap (· ++ ['\n'])

theorem not_mem_stripCr {c : Char} (h : c ∉ line) : c ∉ stripCr line := by
  unfold stripCr
  split
  · exact fun hmem => h (List.dropLast_subset line hmem)
  · exact h

theorem not_mem_of_mem_linesFrom {front : List Char} (hfront : '\n' ∉ front) (h : line ∈ linesFrom front text) :
    '\n' ∉ line := by
  induction text generalizing front with
  | nil =>
    rw [linesFrom] at h
    split at h
    · cases h
    · exact List.mem_singleton.mp h ▸ hfront
  | cons c rest ih =>
    rw [linesFrom] at h
    split at h
    · obtain rfl | hrest := List.mem_cons.mp h
      · exact not_mem_stripCr hfront
      · exact ih List.not_mem_nil hrest
    · rename_i hc
      exact ih (by simpa [hfront] using Ne.symm hc) h

theorem not_mem_of_mem_lines (h : line ∈ lines text) : '\n' ∉ line :=
  not_mem_of_mem_linesFrom List.not_mem_nil h

theorem lines_written (h : ∀ line ∈ ls, '\n' ∉ line) : lines (written ls) = ls.map stripCr := by
  induction ls with
  | nil => rfl
  | cons line ls ih =>
    obtain ⟨hline, hrest⟩ := List.forall_mem_cons.mp h
    have hsplit : written (line :: ls) = line ++ '\n' :: written ls := by simp [written]
    rw [hsplit, lines, linesFrom_append_newline hline, List.nil_append]
    exact congrArg _ (ih hrest)

theorem intercalate_append_newline (h : ls ≠ []) :
    ['\n'].intercalate ls ++ ['\n'] = written ls := by
  induction ls with
  | nil => exact absurd rfl h
  | cons line ls ih =>
    cases ls with
    | nil => simp [written]
    | cons next rest =>
      rw [List.intercalate_cons_cons, List.append_assoc, List.append_assoc, ih (List.cons_ne_nil _ _)]
      simp [written]

theorem intercalate_inj {ls' : List (List Char)} (h : ∀ line ∈ ls, '\n' ∉ line) (h' : ∀ line ∈ ls', '\n' ∉ line)
    (hne : ls ≠ []) (hne' : ls' ≠ []) (heq : ['\n'].intercalate ls = ['\n'].intercalate ls') : ls = ls' := by
  have hwritten : written ls = written ls' := by
    rw [← intercalate_append_newline hne, ← intercalate_append_newline hne', heq]
  clear hne hne' heq
  induction ls generalizing ls' with
  | nil =>
    cases ls' with
    | nil => rfl
    | cons line ls' => simp [written] at hwritten
  | cons line ls ih =>
    cases ls' with
    | nil => simp [written] at hwritten
    | cons line' ls' =>
      obtain ⟨hline, hrest⟩ := List.forall_mem_cons.mp h
      obtain ⟨hline', hrest'⟩ := List.forall_mem_cons.mp h'
      have hsplit (line : List Char) (ls : List (List Char)) : written (line :: ls) = line ++ '\n' :: written ls := by
        simp [written]
      rw [hsplit, hsplit] at hwritten
      obtain ⟨rfl, hback⟩ := Separators.append_cons_inj_of_not_mem hline hline' hwritten
      rw [ih hrest hrest' hback]

end AgentHalo.Lines
