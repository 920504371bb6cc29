import Mathlib.Data.List.Basic
import TmatePlugin.Lib.Utf8
import TmatePlugin.L2Plugin.Scripts

/-!
# What ReadOutput returns

`ReadOutput` puts the lines of an output file together again and keeps 1000
bytes of them.

* `joinLines_getlines`: the lines are the content without its final newline.
* `readOutput_valid_iff`: the result is the content, or 1000 bytes of it and an
  ellipsis. For a content in UTF-8 it is UTF-8 again, as a text frame has to
  be, exactly when byte 1000 is not inside a character.
-/
namespace TmatePlugin.L2.ReadOutput

open CString Utf8
open TmatePlugin.L2.Scripts

/-- The content without its final newline. -/
def chomp (content : Bytes) : Bytes :=
  if content.getLast? = some 10 then content.dropLast else content

theorem chomp_append {s t : Bytes} (ht : t ≠ []) : chomp (s ++ t) = s ++ chomp t := by
  unfold chomp
  rw [List.getLast?_append_of_ne_nil s ht, List.dropLast_append_of_ne_nil ht]
  split <;> rfl

theorem getlinesFrom_ne_nil {cur s : Bytes} (h : cur ≠ [] ∨ s ≠ []) : getlinesFrom cur s ≠ [] := by
  induction s generalizing cur with
  | nil =>
    have hcur : cur ≠ [] := by simpa using h
    rw [getlinesFrom, if_neg hcur]
    simp
  | cons c s ih =>
    rw [getlinesFrom]
    split
    · simp
    · exact ih (.inl (by simp))

/-- The loop with `cur` already read of the current line. -/
theorem joinLines_getlinesFrom (cur s : Bytes) (hcur : (10 : UInt8) ∉ cur) :
    joinLines (getlinesFrom cur s) = chomp (cur ++ s) := by
  induction s generalizing cur with
  | nil =>
    have hlast : cur.getLast? ≠ some 10 := fun h => hcur (List.mem_of_getLast? h)
    rw [List.append_nil, chomp, if_neg hlast, getlinesFrom]
    split
    · rename_i hnil; rw [hnil]; rfl
    · rfl
  | cons c s ih =>
    rw [getlinesFrom]
    split
    · rename_i hc
      subst hc
      cases s with
      | nil =>
        have hnone : getlinesFrom [] [] = [] := rfl
        simp [hnone, joinLines, chomp]
      | cons c' s =>
        have hrest : getlinesFrom [] (c' :: s) ≠ [] := getlinesFrom_ne_nil (.inr (by simp))
        have hjoin : ∀ lines : List Bytes, lines ≠ [] →
            joinLines (cur :: lines) = cur ++ [10] ++ joinLines lines := by
          intro lines hlines
          cases lines with
          | nil => exact absurd rfl hlines
          | cons line lines => rfl
        rw [hjoin _ hrest, ih [] (by simp), List.nil_append, ← List.singleton_append (l := c' :: s),
          ← List.append_assoc, chomp_append (by simp)]
    · rename_i hc
      have hcur' : (10 : UInt8) ∉ cur ++ [c] := by
        simpa [hcur] using fun h : (10 : UInt8) = c => hc h.symm
      rw [ih (cur ++ [c]) hcur', List.append_assoc]
      rfl

theorem joinLines_getlines (content : Bytes) : joinLines (getlines content) = chomp content :=
  joinLines_getlinesFrom [] content (by simp)

/-- A newline is a character. -/
theorem valid_chomp {content : Bytes} (h : Valid content) : Valid (chomp content) := by
  unfold chomp
  split
  · rename_i hlast
    obtain ⟨s, hs⟩ := List.getLast?_eq_some_iff.mp hlast
    rw [hs, List.dropLast_concat]
    have hnewline : Valid [10] := valid_str "\n"
    rw [hs] at h
    exact (valid_append_right_iff hnewline).mp h
  · exact h

/-- The ellipsis is valid, so the cut decides. -/
theorem valid_truncateOutput_iff {output : Bytes} (h : Valid output) :
    Valid (truncateOutput output) ↔ output.length ≤ 1000 ∨ Boundary output 1000 := by
  unfold truncateOutput
  split
  · rename_i hlong
    rw [valid_append_right_iff (valid_str "..."), valid_take_iff h, or_iff_right]
    omega
  · rename_i hshort
    exact ⟨fun _ => .inl (by omega), fun _ => h⟩

/-- The content without its final newline, or at most 1000 bytes of it and an
ellipsis, and UTF-8 again. -/
def TruncatedSafely (content output : Bytes) : Prop :=
  Valid output ∧
    if (chomp content).length ≤ 1000 then output = chomp content
    else ∃ p, p <+: chomp content ∧ p.length ≤ 1000 ∧ output = p ++ str "..."

theorem truncateOutput_eq (output : Bytes) :
    if output.length ≤ 1000 then truncateOutput output = output
    else ∃ p, p <+: output ∧ p.length ≤ 1000 ∧ truncateOutput output = p ++ str "..." := by
  unfold truncateOutput
  split
  · rename_i hshort
    rw [if_neg (by omega)]
  · rename_i hlong
    rw [if_pos (by omega)]
    exact ⟨output.take 1000, List.take_prefix _ _, List.length_take_le _ _, rfl⟩

theorem truncatedSafely_iff {content : Bytes} (h : Valid content) :
    TruncatedSafely content (truncateOutput (chomp content)) ↔
      (chomp content).length ≤ 1000 ∨ Boundary (chomp content) 1000 := by
  rw [← valid_truncateOutput_iff (valid_chomp h)]
  exact ⟨fun hsafe => hsafe.1, fun hvalid => ⟨hvalid, truncateOutput_eq (chomp content)⟩⟩

section
variable {σ : Type} (os : Os σ)

/-- A file that cannot be opened reads as an empty one. -/
theorem readOutput_eq {outputName : Bytes} (s : σ) (hname : outputName ≠ []) :
    readOutput os outputName s =
      truncateOutput (chomp ((os.readFile (cStr outputName) s).getD [])) := by
  rw [readOutput, if_neg hname, joinLines_getlines]

/-- An output file in UTF-8 is returned safely exactly when it is short, or byte
1000 of it begins a character. -/
theorem readOutput_valid_iff (outputName content : Bytes) (s : σ) (hname : outputName ≠ [])
    (hfile : os.readFile (cStr outputName) s = some content) (hvalid : Valid content) :
    TruncatedSafely content (readOutput os outputName s) ↔
      (chomp content).length ≤ 1000 ∨ Boundary (chomp content) 1000 := by
  rw [readOutput_eq os s hname, hfile, Option.getD_some]
  exact truncatedSafely_iff hvalid

end

/-- A system with one file. -/
def oneFile (content : Bytes) : Os Unit where
  system _ s := (.exited 0, s)
  readFile _ _ := some content

theorem readOutput_valid_short :
    TruncatedSafely (str "on\n") (readOutput (oneFile (str "on\n")) (str "status.output") ()) :=
  (readOutput_valid_iff (oneFile (str "on\n")) (str "status.output") (str "on\n") () (by decide) rfl
    (valid_str "on\n")).mpr (.inl (by decide))

/-- Byte 1000 is the second byte of a character. -/
theorem character_cut :
    ¬ ∀ (os : Os Unit) (outputName content : Bytes) (s : Unit), outputName ≠ [] →
      os.readFile (cStr outputName) s = some content → Valid content →
      TruncatedSafely content (readOutput os outputName s) := by
  intro h
  have hascii : ∀ n, Valid (List.replicate n 97) := by
    intro n
    induction n with
    | zero => exact valid_nil
    | succ n ih => exact (valid_str "a").append ih
  let content : Bytes := List.replicate 999 97 ++ str "é"
  have hreplicate : (List.replicate 999 (97 : UInt8)).length = 999 := List.length_replicate
  have hcontent : Valid content := (hascii 999).append (valid_str "é")
  have hlast : chomp content = content := by
    rw [chomp_append (by decide)]
    rfl
  have hsafe := h (oneFile content) (str "web.output") content () (by decide) rfl hcontent
  rw [readOutput_eq (oneFile content) () (by decide)] at hsafe
  have hsafe' : TruncatedSafely content (truncateOutput (chomp content)) := hsafe
  rw [truncatedSafely_iff hcontent, hlast] at hsafe'
  rcases hsafe' with hshort | hboundary
  · have hlength : content.length = 1001 := by
      rw [List.length_append, hreplicate]
      rfl
    omega
  · have hbyte : content[1000]? = some 169 := by
      rw [List.getElem?_append_right (by omega), hreplicate]
      rfl
    exact absurd (hboundary 169 hbyte) (by decide)

end TmatePlugin.L2.ReadOutput
