import EmbeddedJsx.Proofs.Command.Endings

/-!
# Failures without a report

A run reports faults of texts and of settings, and files that it cannot open to read its input.
What else may go wrong is listed in `World.Unreported`, by what is found on the disk and by what
there is room for.  The main statement is `World.run_exits_or_breaks`: these failures break a run
off, and no others do.
-/

namespace EmbeddedJsx

open Text

/-! ### Faults in settings -/

namespace Settings

variable {bytes : List UInt8} {platform : Platform}

/-- A fault in the table of settings is one of the format that they set. -/
lemma ofTable_eq_error_iff {document : Toml.Table} {fault : Fault} :
    ofTable platform document = .error fault ↔
      ∃ output value, document.lookup "output" = some (.table output) ∧
        output.lookup "format" = some value ∧ formatOf platform value = .error fault := by
  unfold ofTable
  split
  · next output houtput =>
    simp only [houtput, Option.some.injEq, Toml.Value.table.injEq, ofOutput]
    cases hlookup : output.lookup "format" with
    | none =>
      simp only [Option.mapM_none, pure_bind]
      refine ⟨nofun, ?_⟩
      rintro ⟨_, value, rfl, hvalue, -⟩
      rw [hlookup] at hvalue
      contradiction
    | some value =>
      rw [Option.mapM_some]
      constructor
      · intro h
        refine ⟨output, value, rfl, hlookup, ?_⟩
        cases hformat : formatOf platform value with
        | ok format =>
          rw [hformat] at h
          contradiction
        | error fault' =>
          rw [hformat] at h
          exact congrArg Except.error (Except.error.inj h)
      · rintro ⟨_, value', rfl, hvalue, hformat⟩
        obtain rfl : value = value' := Option.some.inj (hlookup.symm.trans hvalue)
        rw [hformat]
        rfl
  · next hother =>
    refine ⟨nofun, ?_⟩
    rintro ⟨output, -, houtput, -⟩
    exact absurd houtput (hother output)

/-- All that may be wrong with the bytes of a file with settings. -/
inductive Faulty (platform : Platform) (bytes : List UInt8) : Fault → Prop where
  /-- They are not UTF-8. -/
  | encoding {fault : Utf8.Fault} (hbytes : Utf8.decode bytes = .error fault) :
    Faulty platform bytes (.encoding fault)
  /-- They are not TOML. -/
  | notToml {text : List Char} (hbytes : Utf8.decode bytes = .ok text)
      (htext : Toml.parse platform.settingsDepth text = .error .invalid) :
    Faulty platform bytes (.notToml (platform.explain text))
  /-- An integer has too many digits. -/
  | hugeInteger {text : List Char} {digits : ℕ} (hbytes : Utf8.decode bytes = .ok text)
      (htext : Toml.parse platform.settingsDepth text = .error (.hugeInteger digits)) :
    Faulty platform bytes (.hugeInteger digits)
  /-- Arrays and tables are nested too deeply. -/
  | tooDeep {text : List Char} (hbytes : Utf8.decode bytes = .ok text)
      (htext : Toml.parse platform.settingsDepth text = .error .tooDeep) :
    Faulty platform bytes .tooDeep
  /-- What is set as the format is none. -/
  | unknownFormat {text : List Char} {document output : Toml.Table} {value : Toml.Value}
      {shown : String} (hbytes : Utf8.decode bytes = .ok text)
      (htext : Toml.parse platform.settingsDepth text = .ok document)
      (houtput : document.lookup "output" = some (.table output))
      (hvalue : output.lookup "format" = some value) (hformat : formatOf? value = .none)
      (hshown : value.shown platform.shownDepth = .ok shown) :
    Faulty platform bytes (.unknownFormat shown)
  /-- What is set as the format is none and cannot be shown. -/
  | unshown {text : List Char} {document output : Toml.Table} {value : Toml.Value}
      {fault : Toml.Unshown} (hbytes : Utf8.decode bytes = .ok text)
      (htext : Toml.parse platform.settingsDepth text = .ok document)
      (houtput : document.lookup "output" = some (.table output))
      (hvalue : output.lookup "format" = some value) (hformat : formatOf? value = .none)
      (hshown : value.shown platform.shownDepth = .error fault) :
    Faulty platform bytes (.unshown fault)

lemma faulty_of_ofBytes {fault : Fault} (h : ofBytes platform bytes = .error fault) :
    Faulty platform bytes fault := by
  unfold ofBytes at h
  split at h
  · next hbytes =>
    cases h
    exact .encoding hbytes
  next text hbytes =>
  split at h
  · next htext =>
    cases h
    exact .notToml hbytes htext
  · next htext =>
    cases h
    exact .hugeInteger hbytes htext
  · next htext =>
    cases h
    exact .tooDeep hbytes htext
  · next document htext =>
    obtain ⟨output, value, houtput, hvalue, hfault⟩ := ofTable_eq_error_iff.1 h
    unfold formatOf at hfault
    split at hfault
    · cases hfault
    next hformat =>
    split at hfault
    · next shown hshown =>
      cases hfault
      exact .unknownFormat hbytes htext houtput hvalue hformat hshown
    · next unshown hshown =>
      cases hfault
      exact .unshown hbytes htext houtput hvalue hformat hshown

lemma Faulty.ofBytes_eq {fault : Fault} (h : Faulty platform bytes fault) :
    ofBytes platform bytes = .error fault := by
  cases h with
  | encoding hbytes => simp only [ofBytes, hbytes]
  | notToml hbytes htext | hugeInteger hbytes htext | tooDeep hbytes htext =>
    simp only [ofBytes, hbytes, htext]
  | unknownFormat hbytes htext houtput hvalue hformat hshown
  | unshown hbytes htext houtput hvalue hformat hshown =>
    simp only [ofBytes, hbytes, htext]
    exact ofTable_eq_error_iff.2
      ⟨_, _, houtput, hvalue, by simp only [formatOf, hformat, hshown]⟩

end Settings

/-! ### Texts and renderings -/

lemma textOfBytes_eq_error_iff {bytes : List UInt8} {fault : Utf8.Fault} :
    textOfBytes bytes = .error fault ↔ Utf8.decode bytes = .error fault := by
  unfold textOfBytes
  cases Utf8.decode bytes <;> simp [Except.map]

lemma render_eq_layout_iff {platform : Platform} {format : Format} {indent : Given Indent}
    {text : String} {fault : LayoutFault} :
    render platform format indent text = .error (.layout fault) ↔
      format = .json ∧ ∃ program, parse text = .ok program ∧
        renderJson platform indent program = .error fault := by
  cases format with
  | tokens => cases h : tokens text <;> simp [render, h, Except.map, Except.mapError]
  | tree => cases h : parse text <;> simp [render, h, Except.map, Except.mapError]
  | json =>
    cases h : parse text with
    | error => simp [render, h]
    | ok program =>
      cases hjson : renderJson platform indent program <;> simp [render, h, hjson, Except.mapError]

/-! ### Failures -/

namespace World

variable {a : Arguments} {w : World} {o : Options} {argv : List String} {failure : Failure}

/-- Failures to settle what is to be done. -/
inductive Unsettled (a : Arguments) (w : World) : Failure → Prop where
  /-- Whether there is a file with settings cannot be found out. -/
  | sought {fault : FileFault} (h : w.isFile a.settingsPath = .error fault) :
    Unsettled a w (.file fault)
  /-- The file with settings cannot be opened. -/
  | unopened {fault : FileFault} (h : w.isFile a.settingsPath = .ok true)
      (hread : w.read a.settingsPath = .error fault) : Unsettled a w (.file fault)
  /-- The file with settings is not UTF-8. -/
  | undecoded {bytes : List UInt8} {fault : Utf8.Fault} (h : w.isFile a.settingsPath = .ok true)
      (hread : w.read a.settingsPath = .ok bytes) (hbytes : Utf8.decode bytes = .error fault) :
    Unsettled a w (.encoding fault)
  /-- An integer in the file with settings has too many digits. -/
  | hugeInteger {bytes : List UInt8} {text : List Char} {digits : Nat}
      (h : w.isFile a.settingsPath = .ok true) (hread : w.read a.settingsPath = .ok bytes)
      (hbytes : Utf8.decode bytes = .ok text)
      (htext : Toml.parse w.platform.settingsDepth text = .error (.hugeInteger digits)) :
    Unsettled a w (.hugeInteger digits)
  /-- The arrays and tables in the file with settings are nested too deeply. -/
  | tooDeep {bytes : List UInt8} {text : List Char} (h : w.isFile a.settingsPath = .ok true)
      (hread : w.read a.settingsPath = .ok bytes) (hbytes : Utf8.decode bytes = .ok text)
      (htext : Toml.parse w.platform.settingsDepth text = .error .tooDeep) :
    Unsettled a w .tooDeep
  /-- What the file with settings sets as the format is none, and is too large or too deep to be
  shown. -/
  | unshown {bytes : List UInt8} {text : List Char} {document output : Toml.Table}
      {value : Toml.Value} {fault : Toml.Unshown} (h : w.isFile a.settingsPath = .ok true)
      (hread : w.read a.settingsPath = .ok bytes) (hbytes : Utf8.decode bytes = .ok text)
      (htext : Toml.parse w.platform.settingsDepth text = .ok document)
      (houtput : document.lookup "output" = some (.table output))
      (hvalue : output.lookup "format" = some value)
      (hformat : Settings.formatOf? value = none)
      (hshown : value.shown w.platform.shownDepth = .error fault) :
    Unsettled a w (.unshown fault)

/-- Where a file with settings can be read, its bytes settle what is to be done. -/
lemma options_of_settings {bytes : List UInt8} (h : w.isFile a.settingsPath = .ok true)
    (hread : w.read a.settingsPath = .ok bytes) :
    w.options a = a.settle w.platform (some bytes) := by
  rw [options_eq, settings?, h, hread]
  rfl

lemma unsettled_of_options (h : w.options a = .error failure) : Unsettled a w failure := by
  cases hfile : w.isFile a.settingsPath with
  | error fault =>
    rw [options_eq, settings?, hfile] at h
    cases h
    exact .sought hfile
  | ok found =>
    cases found with
    | false =>
      rw [options_eq, settings?, hfile] at h
      cases h
    | true =>
      cases hread : w.read a.settingsPath with
      | error fault =>
        rw [options_eq, settings?, hfile, hread] at h
        cases h
        exact .unopened hfile hread
      | ok bytes =>
        rw [options_of_settings hfile hread, Arguments.settle] at h
        cases hsettings : Settings.ofBytes w.platform bytes with
        | ok settings =>
          rw [hsettings] at h
          cases h
        | error fault =>
          rw [hsettings] at h
          -- two of the faults are reported, the others are not
          cases Settings.faulty_of_ofBytes hsettings with
          | encoding hbytes =>
            cases h
            exact .undecoded hfile hread hbytes
          | hugeInteger hbytes htext =>
            cases h
            exact .hugeInteger hfile hread hbytes htext
          | tooDeep hbytes htext =>
            cases h
            exact .tooDeep hfile hread hbytes htext
          | unshown hbytes htext houtput hvalue hformat hshown =>
            cases h
            exact .unshown hfile hread hbytes htext houtput hvalue hformat hshown
          | notToml | unknownFormat => cases h

lemma Unsettled.options_eq (h : Unsettled a w failure) : w.options a = .error failure := by
  cases h with
  | sought h => rw [World.options_eq, settings?, h]
  | unopened h hread =>
    rw [World.options_eq, settings?, h, hread]
    rfl
  | undecoded h hread hbytes =>
    rw [options_of_settings h hread, Arguments.settle,
      (Settings.Faulty.encoding hbytes).ofBytes_eq]
  | hugeInteger h hread hbytes htext =>
    rw [options_of_settings h hread, Arguments.settle,
      (Settings.Faulty.hugeInteger hbytes htext).ofBytes_eq]
  | tooDeep h hread hbytes htext =>
    rw [options_of_settings h hread, Arguments.settle,
      (Settings.Faulty.tooDeep hbytes htext).ofBytes_eq]
  | unshown h hread hbytes htext houtput hvalue hformat hshown =>
    rw [options_of_settings h hread, Arguments.settle,
      (Settings.Faulty.unshown hbytes htext houtput hvalue hformat hshown).ofBytes_eq]

/-- Failures for which a run has no report. -/
inductive Unreported (a : Arguments) (w : World) : Failure → Prop where
  /-- What is to be done cannot be settled. -/
  | unsettled {failure : Failure} (h : Unsettled a w failure) : Unreported a w failure
  /-- The name of the input is no name of a file. -/
  | misnamed {o : Options} {fault : FileFault} (h : w.options a = .ok (.ok o))
      (hread : w.read o.input = .error fault) (hnul : fault.reason = .nul) :
    Unreported a w (.file fault)
  /-- The input is not UTF-8. -/
  | undecoded {o : Options} {bytes : List UInt8} {fault : Utf8.Fault}
      (h : w.options a = .ok (.ok o)) (hread : w.read o.input = .ok bytes)
      (hbytes : Utf8.decode bytes = .error fault) : Unreported a w (.encoding fault)
  /-- The input can be read, but its record cannot be laid out: there is no such indentation, there
  is no room in memory, or the record is nested too deeply. -/
  | unlaid {o : Options} {text : String} {program : Program} {fault : LayoutFault}
      (h : w.Reads a o text) (hformat : o.shownFormat = .json) (htext : parse text = .ok program)
      (hlayout : renderJson w.platform o.indent program = .error fault) :
    Unreported a w (.layout fault)
  /-- The standard output does not take all of the rendering. -/
  | unshown {o : Options} {text rendering : String} (h : w.Reads a o text)
      (hrender : render w.platform o.shownFormat o.indent text = .ok rendering)
      (houtput : o.output = none) (hroom : w.outlet < (w.stdout ++ rendering).length) :
    Unreported a w .outlet
  /-- The file for the rendering cannot be opened, or there is no room in it. -/
  | unwritten {o : Options} {text rendering : String} {path : Path} {fault : FileFault}
      (h : w.Reads a o text)
      (hrender : render w.platform o.shownFormat o.indent text = .ok rendering)
      (houtput : o.output = some path)
      (hwrite : (w.write path (Utf8.encode rendering)).1 = .error fault) :
    Unreported a w (.file fault)

/-- Errors that a run reports without having read a text. -/
inductive Refused (a : Arguments) (w : World) : String → Prop where
  /-- The settings are at fault. -/
  | settings {fault : Settings.Fault} (h : w.options a = .ok (.error fault)) :
    Refused a w ("error: " ++ fault.message)
  /-- The input cannot be opened. -/
  | input {o : Options} {fault : FileFault} (h : w.options a = .ok (.ok o))
      (hread : w.read o.input = .error fault) (hnul : fault.reason ≠ .nul) :
    Refused a w ("error: " ++ fault.message)

lemma Ends.exits_or_breaks {e : Ending} {w' : World} (h : Ends a w e w') :
    (∃ code ≤ 2, e = .exit code) ∨ ∃ failure, e = .broken failure := by
  cases h with
  | shown | written => exact .inl ⟨0, by decide, rfl⟩
  | unreadable => exact .inl ⟨1, by decide, rfl⟩
  | misconfigured | unopened => exact .inl ⟨2, by decide, rfl⟩
  | unsettled | misnamed | undecoded | unlaid | unshown | unwritten => exact .inr ⟨_, rfl⟩

lemma Ends.unreported {w' : World} (h : Ends a w (.broken failure) w') :
    Unreported a w failure := by
  cases h with
  | unsettled h => exact .unsettled (unsettled_of_options h)
  | misnamed h hread hnul => exact .misnamed h hread hnul
  | undecoded h hread hbytes => exact .undecoded h hread (textOfBytes_eq_error_iff.1 hbytes)
  | unlaid h hrender =>
    obtain ⟨hformat, program, htext, hlayout⟩ := render_eq_layout_iff.1 hrender
    exact .unlaid h hformat htext hlayout
  | unshown h hrender houtput hroom => exact .unshown h hrender houtput (Nat.lt_of_not_le hroom)
  | unwritten h hrender houtput hwrite => exact .unwritten h hrender houtput hwrite

lemma Unreported.exists_ends (h : Unreported a w failure) :
    ∃ w', Ends a w (.broken failure) w' := by
  cases h with
  | unsettled h => exact ⟨_, .unsettled h.options_eq⟩
  | misnamed h hread hnul => exact ⟨_, .misnamed h hread hnul⟩
  | undecoded h hread hbytes => exact ⟨_, .undecoded h hread (textOfBytes_eq_error_iff.2 hbytes)⟩
  | unlaid h hformat htext hlayout =>
    exact ⟨_, .unlaid h (render_eq_layout_iff.2 ⟨hformat, _, htext, hlayout⟩)⟩
  | unshown h hrender houtput hroom =>
    exact ⟨_, .unshown h hrender houtput (Nat.not_le_of_lt hroom)⟩
  | unwritten h hrender houtput hwrite => exact ⟨_, .unwritten h hrender houtput hwrite⟩

lemma Refused.ends {message : String} (h : Refused a w message) :
    Ends a w (.exit 2) (w.told message) := by
  cases h with
  | settings h => exact .misconfigured h
  | input h hread hnul => exact .unopened h hread hnul

/-- **Failures.**  A run ends with one of three exit codes, unless one of the failures listed
breaks it off.  Faults of the settings, and of access to the input, are among the errors that are
reported with the last of the three codes. -/
theorem run_exits_or_breaks (h : Arguments.read argv = .ok a) (w : World) :
    ((∃ code ≤ 2, (w.run argv).1 = .exit code) ∨
        ∃ failure, (w.run argv).1 = .broken failure) ∧
      (∀ failure, (w.run argv).1 = .broken failure ↔ Unreported a w failure) ∧
      ∀ message, Refused a w message → w.run argv = (.exit 2, w.told message) := by
  have hends : Ends a w (w.run argv).1 (w.run argv).2 := (run_eq_iff h).1 rfl
  refine ⟨hends.exits_or_breaks, fun failure => ⟨fun hbroken => ?_, fun hunreported => ?_⟩,
    fun message hrefused => (run_eq_iff h).2 hrefused.ends⟩
  · rw [hbroken] at hends
    exact hends.unreported
  · obtain ⟨w', hends'⟩ := hunreported.exists_ends
    rw [(run_eq_iff h).2 hends']

/-- A byte with which no character begins breaks a run off. -/
theorem run_exits_or_breaks_undecoded :
    let a : Arguments := ⟨"a.jsx", none, none, false, false, none, none⟩
    let w := ofFiles ⟨[(["a.jsx"], .file [255])]⟩
    Arguments.read ["a.jsx"] = .ok a ∧
      (w.run ["a.jsx"]).1 = .broken (.encoding ⟨.start, 0, 255, 1⟩) := by
  intro a w
  have hargv : Arguments.read ["a.jsx"] = .ok a := by cbv
  let o : Options := ⟨⟨.here, ["a.jsx"]⟩, none, .value .tree, .value (.number 2)⟩
  have hfailure : Unreported a w (.encoding ⟨.start, 0, 255, 1⟩) :=
    @Unreported.undecoded a w o [255] _ (by cbv) (by cbv) (by cbv)
  exact ⟨hargv, ((run_exits_or_breaks hargv w).2.1 _).2 hfailure⟩

/-- Not every run with arguments that can be carried out ends with an exit code. -/
theorem not_forall_run_exits :
    ¬ ∀ (argv : List String) (a : Arguments) (w : World), Arguments.read argv = .ok a →
      ∃ code ≤ 2, (w.run argv).1 = .exit code := by
  intro h
  let a : Arguments := ⟨"a.jsx", none, none, false, false, none, none⟩
  let w := ofFiles ⟨[(["a.jsx"], .file [255])]⟩
  let o : Options := ⟨⟨.here, ["a.jsx"]⟩, none, .value .tree, .value (.number 2)⟩
  have hargv : Arguments.read ["a.jsx"] = .ok a := by cbv
  have hends : Ends a w (.broken (.encoding ⟨.start, 0, 255, 1⟩)) w :=
    @Ends.undecoded a w o [255] _ (by cbv) (by cbv) (by cbv)
  obtain ⟨code, -, hcode⟩ := h ["a.jsx"] a w hargv
  rw [(run_eq_iff hargv).2 hends] at hcode
  exact Ending.noConfusion hcode

end World

end EmbeddedJsx
