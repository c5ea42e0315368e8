import EmbeddedJsx.Proofs.Lexical.Head

/-!
# Scanning by the table

`scan` passes over insignificant characters until a row of the table applies.  The main statement
is `scan_eq_iff`: what `scan` answers is the only way to cut the text into a run of insignificant
characters and something that the table knows.
-/

namespace EmbeddedJsx

/-- The table says of what was found that it stands there. -/
def Found.Fits : Found → Prop
  | token kind lexeme rest => Lexeme kind lexeme rest
  | truncated cause lexeme => Breaks (.truncated cause) lexeme []
  | loneSlash lexeme rest => Breaks .loneSlash lexeme rest
  | nothing => True

/-- What `scan` finds is what the table says, after characters that begin nothing. -/
lemma scan_fits (text : List Char) :
    ∃ skipped, text = skipped ++ (scan text).2.text ∧ skipped.length = (scan text).1 ∧
      Insignificant skipped ∧ (scan text).2.Fits := by
  induction text with
  | nil => exact ⟨[], rfl, rfl, insignificant_nil, trivial⟩
  | cons c rest ih =>
    have hdesc := Head.describes_ofText c rest
    unfold scan
    split
    · next kind length h =>
      rw [h] at hdesc
      obtain ⟨lexeme, after, heq, rfl, hlex⟩ := hdesc
      refine ⟨[], ?_, rfl, insignificant_nil, ?_⟩
      · simp [Found.text]
      · simpa [Found.Fits, heq] using hlex
    · next cause h =>
      rw [h] at hdesc
      exact ⟨[], rfl, rfl, insignificant_nil, hdesc⟩
    · next length h =>
      rw [h] at hdesc
      obtain ⟨lexeme, after, heq, rfl, hbreaks⟩ := hdesc
      refine ⟨[], ?_, rfl, insignificant_nil, ?_⟩
      · simp [Found.text]
      · simpa [Found.Fits, heq] using hbreaks
    · next h =>
      -- nothing begins here: the character joins those that are passed over
      rw [h] at hdesc
      obtain ⟨skipped, heq, hlen, hskip, hfits⟩ := ih
      refine ⟨c :: skipped, ?_, ?_, ?_, hfits⟩
      · rw [List.cons_append, ← heq]
      · simp [hlen]
      · intro d hd
        rcases List.mem_cons.1 hd with rfl | hd
        · exact hdesc d rfl
        · exact hskip d hd

/-- What stands at the beginning of a text according to the table is found there. -/
lemma scan_of_fits {found : Found} (h : found.Fits) : scan found.text = (0, found) := by
  cases found with
  | token kind lexeme rest =>
    obtain ⟨c, more, rfl, -⟩ := Lexeme.exists_cons h
    have hhead : Head.ofText c (more ++ rest) = _ := Head.ofText_of_lexeme h rfl
    simp [Found.text, scan, hhead]
  | truncated cause lexeme =>
    cases lexeme with
    | nil =>
      obtain ⟨c, rest, hcons, -⟩ := Breaks.exists_cons h
      simp at hcons
    | cons c rest => simp [Found.text, scan, Head.ofText_of_truncated h]
  | loneSlash lexeme rest =>
    cases lexeme with
    | nil =>
      obtain ⟨c, more, hcons, -⟩ := Breaks.exists_cons h
      simp at hcons
    | cons c more =>
      have hhead : Head.ofText c (more ++ rest) = _ := Head.ofText_of_loneSlash h rfl
      simp [Found.text, scan, hhead]
  | nothing => rfl

lemma scan_append {skipped : List Char} (hskip : Insignificant skipped) (text : List Char) :
    scan (skipped ++ text) = ((scan text).1 + skipped.length, (scan text).2) := by
  induction skipped with
  | nil => rfl
  | cons c skipped ih =>
    have hc : isSignificant c = false := hskip c List.mem_cons_self
    have hrest : Insignificant skipped := fun d hd => hskip d (List.mem_cons_of_mem c hd)
    simp [scan, Head.ofText_of_insignificant hc, ih hrest, Nat.add_assoc]

/-- What is found in a text is the one thing that the table knows after characters that begin
nothing. -/
theorem scan_eq_iff {text : List Char} {n : ℕ} {found : Found} :
    scan text = (n, found) ↔
      ∃ skipped, text = skipped ++ found.text ∧ skipped.length = n ∧ Insignificant skipped ∧
        found.Fits := by
  constructor
  · intro h
    have hfits := scan_fits text
    rw [h] at hfits
    exact hfits
  · rintro ⟨skipped, rfl, rfl, hskip, hfits⟩
    rw [scan_append hskip, scan_of_fits hfits]
    simp

end EmbeddedJsx
