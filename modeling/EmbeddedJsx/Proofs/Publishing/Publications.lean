import EmbeddedJsx.Proofs.Publishing.Decoding
import EmbeddedJsx.Proofs.Runs.Sessions

/-!
# What is published

When a document has been opened or has changed, one publication goes out for it: an empty one if its
text can be read, and one with a single diagnostic if not.  The main statement,
`validate_publishes`, says so, and says when an editor finds the faulty part of the text at the range
of the diagnostic.
-/

namespace EmbeddedJsx

/-- To an editor the range of the diagnostic is the span. -/
def Diagnostic.Designates (text : List Char) (d : Diagnostic) (span : Span) : Prop :=
  d.start.decode text = some span.start ∧ d.stop.decode text = some span.stop

/-- A failure to read a text is about a part of that text. -/
lemma documented_of_parse {text : String} {error : SyntaxError} (h : parse text = .error error) :
    error.Documented text.toList := by
  have hlawful : Session.Lawful text.toList nestingLimit (Session.ofText text) .parse :=
    (Session.settled_ofText text).lawful .parse
  unfold parse parseWithin at h
  split at h
  · simp at h
  · next error' s' hparse =>
    obtain rfl : error' = error := Except.error.inj h
    exact (hlawful.errors error' s' hparse).1

/-- The diagnostic of a failure designates what the failure is about just if places are counted
alike up to both ends of it. -/
lemma diagnostic_designates_iff {text : String} {error : SyntaxError}
    (h : error.Documented text.toList) :
    (error.diagnostic text).Designates text.toList error.span ↔
      Diagnostic.Place.CountsAlike (text.toList.take error.span.start) ∧
        Diagnostic.Place.CountsAlike (text.toList.take error.span.stop) :=
  and_congr (Diagnostic.Place.decode_ofOffset_iff (h.start_le.trans h.stop_le))
    (Diagnostic.Place.decode_ofOffset_iff h.stop_le)

/-- **Publications.**  Wherever the texts of documents are kept, a document is answered with one
publication under its address.  It is empty just if the text can be read; else it holds one
diagnostic, an error that is worded as the failure is, whose range is to an editor what the failure
is about just if no lone carriage return stands before either end of it and no character of two units
before either end on the same line. -/
theorem validate_publishes (texts : String → String) (uri : String) :
    ∃ found, validate texts uri = [⟨uri, found⟩] ∧
      (found = [] ↔ ∃ program, parse (texts uri) = .ok program) ∧
      ∀ error, parse (texts uri) = .error error →
        ∃ d, found = [d] ∧ d.message = error.fault.message ∧ d.severity = 1 ∧
          d.source = "jsxparse" ∧
          (d.Designates (texts uri).toList error.span ↔
            Diagnostic.Place.CountsAlike ((texts uri).toList.take error.span.start) ∧
              Diagnostic.Place.CountsAlike ((texts uri).toList.take error.span.stop)) := by
  refine ⟨diagnostics (texts uri), rfl, ?_, fun error herror => ?_⟩
  · unfold diagnostics
    split
    · next program hparse => simp [hparse]
    · next error hparse => simp [hparse]
  · refine ⟨error.diagnostic (texts uri), ?_, rfl, rfl, rfl,
      diagnostic_designates_iff (documented_of_parse herror)⟩
    rw [diagnostics, herror]

/-- A closing tag on the second line, behind a carriage return and a line feed. -/
theorem validate_publishes_closing :
    let text := "<a>\r\n</b>"
    let error : SyntaxError := ⟨.mismatch "b" "a", ⟨7, 8⟩⟩
    parse text = .error error ∧
      ∃ d, validate (fun _ => text) "file:///a.jsx" = [⟨"file:///a.jsx", [d]⟩] ∧
        d.message = "closing tag '</b>' does not match '<a>'" ∧
        d.Designates text.toList error.span := by
  intro text error
  have h : parse text = .error error := by cbv
  obtain ⟨found, hpublished, -, hfound⟩ := validate_publishes (fun _ => text) "file:///a.jsx"
  obtain ⟨d, rfl, hmessage, -, -, hiff⟩ := hfound error h
  have hstart : text.toList.take 7 = ['<', 'a', '>', '\r', '\n', '<', '/'] := by decide
  have hstop : text.toList.take 8 = ['<', 'a', '>', '\r', '\n', '<', '/', 'b'] := by decide
  refine ⟨h, d, hpublished, hmessage, hiff.2 ⟨?_, ?_⟩⟩
  · rw [hstart]
    simp [Diagnostic.Place.countsAlike_cons_iff, Diagnostic.Place.countsAlike_nil, utf16Units]
  · rw [hstop]
    simp [Diagnostic.Place.countsAlike_cons_iff, Diagnostic.Place.countsAlike_nil, utf16Units]

/-- A character of two units in front of a failure moves its range to the left. -/
theorem not_forall_designates :
    ¬ ∀ (text : String) (error : SyntaxError), parse text = .error error →
      ∀ d ∈ diagnostics text, d.Designates text.toList error.span := by
  intro h
  have hparse : parse "'😀'<a></b>" = .error ⟨.mismatch "b" "a", ⟨8, 9⟩⟩ := by cbv
  have hdesignates := h _ _ hparse (SyntaxError.diagnostic ⟨.mismatch "b" "a", ⟨8, 9⟩⟩ "'😀'<a></b>")
    (by simp [diagnostics, hparse])
  exact absurd hdesignates.1 (by decide)

end EmbeddedJsx
