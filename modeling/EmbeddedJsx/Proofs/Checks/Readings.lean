import EmbeddedJsx.Checked.Reading
import EmbeddedJsx.Proofs.Checks.Productions

/-!
# Readings and sessions

What is done to a session is done to its reading, the session without the characters that its cursor
carries.  Reading a construct (`read_reading`) and collecting all markup (`collect_reading`) lead to
the same with checks as without them.
-/

namespace EmbeddedJsx

open Checked

variable {text : List Char} {s : Session} {c : Cursor} {steps levels k : ℕ}

/-- How the construct is read with checks. -/
def Construct.checkedRule : (construct : Construct) → Reading.Rule construct.Answer
  | elementName => fun _ steps => Checked.elementName steps
  | attributeName => fun _ _ => Checked.attributeName
  | attributeValue => Checked.attributeValue
  | oneAttribute => Checked.oneAttribute
  | openingTag => Checked.openingTag
  | closingTag => fun _ steps => Checked.closingTag steps
  | element => Checked.element
  | children => fun nested steps => Checked.children nested steps steps
  | fragment => Checked.fragment
  | expression => Checked.expression

lemma Construct.mirrors_rule (construct : Construct) (steps levels : ℕ) :
    MirrorsWithin text (construct.checkedRule (markup steps levels) steps)
      (construct.rule (Production.markup steps levels) steps) := by
  intro c hc
  have hnested := mirrors_markup text steps levels
  cases construct with
  | elementName => exact (mirrors_elementName hc steps).any
  | attributeName => exact (mirrors_attributeName hc).any
  | attributeValue => exact mirrors_attributeValue hnested hc steps
  | oneAttribute => exact mirrors_oneAttribute hnested hc steps
  | openingTag => exact (mirrors_openingTag hnested hc steps).any
  | closingTag => exact (mirrors_closingTag hc steps).any
  | element => exact mirrors_element hnested hc steps
  | children => exact mirrors_children hnested hc steps steps
  | fragment => exact mirrors_fragment hnested hc steps
  | expression => exact mirrors_expression hnested hc steps

namespace Session

lemma steps_reading (hc : s.cursor.Within text) : s.reading.steps text = s.cursor.steps := by
  have hcursor : s.reading.mark.cursor text = s.cursor.emptied := hc.cursor_mark
  rw [Reading.steps, hcursor]
  rfl

lemma goOn_reading (hc : s.cursor.Within text) (call : Cursor.Call) :
    s.reading.goOn text call.perform =
      restate (fun error => .interrupted (.fault error)) (fun c => ⟨c.mark, s.body⟩)
        (call.perform s.cursor) := by
  have hcursor : s.reading.mark.cursor text = s.cursor.emptied := hc.cursor_mark
  have hstep : call.perform s.cursor.emptied = call.perform s.cursor := by
    cases call with
    | next => exact s.cursor.next_emptied
    | nextChild => exact s.cursor.nextChild_emptied
  rw [Reading.goOn, hcursor, hstep]
  cases call.perform s.cursor <;> rfl

lemma read_reading (hc : s.cursor.Within text) (construct : Construct) (levels : ℕ) :
    s.reading.read text construct.checkedRule levels =
      restate .interrupted (fun c => ⟨c.mark, s.body⟩)
        (construct.rule (Production.markup s.cursor.steps levels) s.cursor.steps s.cursor) := by
  have hsame := (construct.mirrors_rule s.cursor.steps levels hc).same
  have hmark : s.reading.mark = s.cursor.mark := rfl
  rw [Reading.read, steps_reading hc, hmark, hsame]
  cases construct.rule (Production.markup s.cursor.steps levels) s.cursor.steps s.cursor <;> rfl

/-- In each round the next token is read, and the markup that begins with it. -/
lemma collect_reading (hc : s.cursor.Within text) (k : ℕ) :
    s.reading.collect text (markup steps levels) k =
      restate .interrupted reading (s.collect (Production.markup steps levels) k) := by
  induction k generalizing s with
  | zero => rfl
  | succ k ih =>
    have hcursor : s.reading.mark.cursor text = s.cursor.emptied := hc.cursor_mark
    have hnext := hc.next
    rw [Reading.collect, hcursor, s.cursor.next_emptied, collect]
    cases hstep : s.cursor.next with
    | error error c =>
      by_cases hfamily : error.fault.family = .boundary
      · simp only [hfamily, if_true]
        rfl
      · simp only [hfamily, if_false]
        rfl
    | ok kind c =>
      rw [hstep] at hnext
      have hc : c.Within text := hnext
      by_cases hkind : kind.opensMarkup = true
      · have hmirrors := mirrors_markup text steps levels hc
        simp only [hkind, if_true, hmirrors.same]
        cases hnode : Production.markup steps levels c with
        | error interruption c' => rfl
        | ok node c' =>
          exact ih (s := ⟨c', s.body.push node⟩) (hmirrors.answers node c' hnode).1
      · simp only [hkind]
        exact ih (s := ⟨c, s.body⟩) hc

lemma parse_reading (hc : s.cursor.Within text) (levels : ℕ) :
    s.reading.parse text levels =
      restate .interrupted reading (s.collectWithin s.cursor.steps levels) := by
  rw [Reading.parse, steps_reading hc]
  exact collect_reading hc _

end Session

end EmbeddedJsx
