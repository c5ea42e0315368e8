import EmbeddedJsx.Proofs.Command.Delivery
import EmbeddedJsx.Proofs.Rendering.Spans

/-!
# Offsets into the input

The spans that a run shows are spans of the text that it has read from the input.  Line ends are
unified on the way from the bytes to that text, and two characters become one where a carriage
return stands in front of a line feed.  The main statement is `World.run_shows_spans`.
-/

namespace EmbeddedJsx

open Text

/-! ### Unified line ends -/

lemma return_not_mem_unifyNewlines (chars : List Char) : '\r' ∉ unifyNewlines chars := by
  fun_induction unifyNewlines chars with
  | case1 => simp
  | case2 rest ih => simpa using ih
  | case3 c rest h ih =>
    by_cases hc : c = '\r'
    · simpa [hc] using ih
    · simpa [hc, Ne.symm hc] using ih

/-- Characters are kept by unifying line ends exactly if there is no carriage return. -/
lemma unifyNewlines_eq_self_iff {chars : List Char} :
    unifyNewlines chars = chars ↔ '\r' ∉ chars := by
  constructor
  · intro h
    rw [← h]
    exact return_not_mem_unifyNewlines chars
  · intro h
    fun_induction unifyNewlines chars with
    | case1 => rfl
    | case2 rest ih => simp at h
    | case3 c rest _ ih =>
      obtain ⟨hc, hrest⟩ := List.ne_and_not_mem_of_not_mem_cons h
      rw [if_neg (Ne.symm hc), ih hrest]

lemma exists_decode_of_textOfBytes {bytes : List UInt8} {text : String}
    (h : textOfBytes bytes = .ok text) :
    ∃ content, Utf8.decode bytes = .ok content ∧ text.toList = unifyNewlines content := by
  unfold textOfBytes at h
  cases hdecode : Utf8.decode bytes with
  | error fault => simp [hdecode, Except.map] at h
  | ok content =>
    simp only [hdecode, Except.map, Except.ok.injEq] at h
    exact ⟨content, rfl, by rw [← h, String.toList_ofList]⟩

namespace World

variable {a : Arguments} {w : World} {argv : List String}

/-- **Offsets.**  A run that succeeds shows spans of the characters of the input with unified line
ends, and what these spans cover; those are the characters of the input itself just if there is no
carriage return among them. -/
theorem run_shows_spans (h : Arguments.read argv = .ok a) (hexit : (w.run argv).1 = .exit 0) :
    ∃ o bytes content rendering, w.options a = .ok (.ok o) ∧ w.read o.input = .ok bytes ∧
      Utf8.decode bytes = .ok content ∧ w.Delivers o.output rendering (w.run argv).2 ∧
      ShowsSpans (unifyNewlines content) rendering o.shownFormat ∧
      (unifyNewlines content = content ↔ '\r' ∉ content) := by
  have hends : Ends a w (w.run argv).1 (w.run argv).2 := (run_eq_iff h).1 rfl
  obtain ⟨o, text, rendering, hreads, hrender, hdelivers⟩ := hends.all hexit
  obtain ⟨bytes, hread, htext⟩ := hreads.input
  obtain ⟨content, hcontent, hunified⟩ := exists_decode_of_textOfBytes htext
  refine ⟨o, bytes, content, rendering, hreads.options, hread, hcontent, hdelivers, ?_,
    unifyNewlines_eq_self_iff⟩
  rw [← hunified]
  exact showsSpans_of_render hrender

/-- The table of the tokens of a tag behind a line feed. -/
lemma render_tag : render .ample .tokens (.value (.number 2)) "\n<a>" =
    .ok ("ELEMENT_OPEN         [1, 2) '<'\n" ++
      "IDENTIFIER           [2, 3) 'a'\n" ++
      "ELEMENT_CLOSE        [3, 4) '>'\n") := by
  have htokens : tokens "\n<a>" =
      .ok [⟨.tagOpen, ⟨1, 2⟩, "<"⟩, ⟨.identifier, ⟨2, 3⟩, "a"⟩, ⟨.tagClose, ⟨3, 4⟩, ">"⟩] := by cbv
  rw [render_tokens htokens]
  exact congrArg _ (by decide +kernel)

/-- A tag behind a line feed. -/
theorem run_shows_spans_tag :
    let argv := ["a.jsx", "--tokens"]
    let w := ofFiles ⟨[(["a.jsx"], .file [10, 60, 97, 62])]⟩
    (w.run argv).1 = .exit 0 ∧
      ∃ (o : Options) (bytes : List UInt8) (content : List Char) (rendering : String),
        w.read o.input = .ok bytes ∧ Utf8.decode bytes = .ok content ∧
        w.Delivers o.output rendering (w.run argv).2 ∧
        ShowsSpans (unifyNewlines content) rendering o.shownFormat := by
  intro argv w
  let a : Arguments := ⟨"a.jsx", none, none, false, true, none, none⟩
  let o : Options := ⟨⟨.here, ["a.jsx"]⟩, none, .value .tokens, .value (.number 2)⟩
  have hargv : Arguments.read argv = .ok a := by cbv
  have hreads : w.Reads a o "\n<a>" := ⟨by cbv, [10, 60, 97, 62], by cbv, by cbv⟩
  have hexit : (w.run argv).1 = .exit 0 := by
    rw [(run_eq_iff hargv).2 (.shown hreads render_tag rfl (by decide))]
  obtain ⟨o', bytes, content, rendering, -, h, h', h'', hspans, -⟩ := run_shows_spans hargv hexit
  exact ⟨hexit, o', bytes, content, rendering, h, h', h'', hspans⟩

/-- Behind a carriage return and a line feed, the span that is shown with the bracket of a tag is
not where the bracket stands in the input. -/
theorem run_tokens_behind_return :
    let w := ofFiles ⟨[(["a.jsx"], .file [13, 10, 60, 97, 62])]⟩
    w.run ["a.jsx", "--tokens"] =
        (.exit 0, { w with stdout :=
          "ELEMENT_OPEN         [1, 2) '<'\n" ++
          "IDENTIFIER           [2, 3) 'a'\n" ++
          "ELEMENT_CLOSE        [3, 4) '>'\n" }) ∧
      ∃ content, Utf8.decode [13, 10, 60, 97, 62] = .ok content ∧
        Span.slice ⟨1, 2⟩ content ≠ ['<'] := by
  intro w
  let a : Arguments := ⟨"a.jsx", none, none, false, true, none, none⟩
  let o : Options := ⟨⟨.here, ["a.jsx"]⟩, none, .value .tokens, .value (.number 2)⟩
  have hargv : Arguments.read ["a.jsx", "--tokens"] = .ok a := by cbv
  have hreads : w.Reads a o "\n<a>" := ⟨by cbv, [13, 10, 60, 97, 62], by cbv, by cbv⟩
  refine ⟨?_, ['\r', '\n', '<', 'a', '>'], by cbv, by decide⟩
  rw [(run_eq_iff hargv).2 (.shown hreads render_tag rfl (by decide))]
  rfl

end World

end EmbeddedJsx
