import MeshLens.CommandLine.Report
import MeshLens.Proofs.Session.FirstAttach
import MeshLens.Proofs.Session.StoredParameters

/-!
# Commands on one expression

An expression can be compiled, or tried on a snapshot. The latter goes through a session, which starts
with a text of its own, evaluates it when the snapshot is attached, and compiles the expression only when
it is another text.

## Key results

- `Report.commands_agree`: when trying an expression fails because of it, and what is found otherwise
-/

namespace MeshLens.CommandLine

/-- Whether a failure is about the expression. -/
def Failure.isQuery : Failure → Bool
  | .query _ | .badInput _ => true
  | _ => false

namespace Report

variable {config : Config} {choice : SnapshotChoice} {path : Path} {entry : FileEntry} {g : Graph}
  {channel : Channel} {expression : Text}

/-- Whether a command failed. -/
def Fails (r : Report) : Prop :=
  ∃ failure, r.result = .error failure

/-- Whether a command failed because of its expression. -/
def FailsOnQuery (r : Report) : Prop :=
  ∃ failure, r.result = .error failure ∧ failure.isQuery = true

/-- `Fails` is decided by the failure of the report. -/
instance (r : Report) : Decidable r.Fails :=
  decidable_of_iff (r.failure?.isSome = true) <| by
    unfold failure? Fails
    cases r.result <;> simp

/-- `FailsOnQuery` is decided by the failure of the report. -/
instance (r : Report) : Decidable r.FailsOnQuery :=
  decidable_of_iff (r.failure?.any (·.isQuery) = true) <| by
    unfold failure? FailsOnQuery
    cases r.result <;> simp

/-- What a compiled query is printed as. -/
def selectorLines (query : Option CompiledQuery) (requests : List OptionRequest) : List Text :=
  match query with
  | none => ["(empty)"]
  | some query => queryLines query requests

/-! ## Compiling -/

/-- `compile` of an expression that can be read fails when there is an error in it. -/
theorem compile_fails_iff : (compile config channel expression).Fails ∧
      Session.isReadable expression = true ↔
    (Session.errorOf? expression).isSome = true := by
  have hreadable := Session.isReadable_iff expression config.display.flags
  unfold compile Fails
  cases hc : MeshLens.compile expression config.display.flags with
  | error fault =>
    refine iff_of_false (fun h => ?_) fun h => ?_
    · obtain ⟨c, hok⟩ := hreadable.1 h.2
      cases hc.symm.trans hok
    · obtain ⟨e, he⟩ := Option.isSome_iff_exists.1 h
      obtain ⟨c, hok⟩ := hreadable.1 (Session.isReadable_of_error he)
      cases hc.symm.trans hok
  | ok c =>
    rw [Session.errorOf?_eq hc, and_iff_left (hreadable.2 ⟨c, hc⟩)]
    simp only [ofCompilation, Compilation.error?]
    cases c.result with
    | error e => simp
    | ok query => cases query <;> simp

/-- `compile` prints the selector of an expression that compiles. -/
theorem compile_lines {printed : List Text}
    (h : (compile config channel expression).result = .ok printed) : ∃ query requests,
      printed = selectorLines query requests ∧
        Session.selectorOf? expression = some (query.map (·.render)) := by
  unfold compile at h
  -- neither an error in reading nor one in the expression prints lines
  cases hc : MeshLens.compile expression config.display.flags with
  | error fault =>
    rw [hc] at h
    cases h
  | ok c =>
    simp only [hc, ofCompilation] at h
    cases hresult : c.result with
    | error e =>
      rw [hresult] at h
      cases h
    | ok query =>
      refine ⟨query, c.requests, ?_, ?_⟩
      · cases query <;> simp_all [selectorLines]
      · rw [Session.selectorOf?_eq hc, hresult]
        rfl

/-! ## Trying on a snapshot -/

/-- Whether an expression is tried on a snapshot: the session is opened, the snapshot is attached without
a failure, and the expression is another one than the text that the session starts with. -/
def Tries (config : Config) (choice : SnapshotChoice) (path : Path) (entry : FileEntry)
    (channel : Channel) (expression : Text) : Prop :=
  ∃ session, openSession config choice path entry = .ok session ∧
    (session.attach path.text none).2 = .ok () ∧ session.values.get channel ≠ expression

/-- `Tries` is decided by opening the session and attaching the snapshot. -/
instance : Decidable (Tries config choice path entry channel expression) :=
  decidable_of_iff ((openSession config choice path entry).toOption.any fun session =>
      (session.attach path.text none).2.toBool && session.values.get channel ≠ expression) <| by
    unfold Tries
    cases openSession config choice path entry with
    | error failure => simp [Except.toOption]
    | ok session =>
      cases hattach : (session.attach path.text none).2 <;>
        simp [Except.toOption, Except.toBool, hattach]

/-- `loadGraph` gives a snapshot that was built and not yet touched. -/
theorem untouched_of_loadGraph (h : loadGraph path entry = .ok g) : g.Untouched := by
  unfold loadGraph at h
  split at h
  · cases h
  · split at h
    · cases h
    · exact Graph.ofValue_untouched (Except.mapError_eq_ok h)

/-- `openSession` opens a session over the snapshot that is loaded, unless the URL is refused. -/
theorem openSession_spec (config : Config) (choice : SnapshotChoice)
    (hload : loadGraph path entry = .ok g) :
    (∃ e, openSession config choice path entry = .error (.url e)) ∨
    ∃ params session, openParams choice.url = .ok params ∧
      openSession config choice path entry = .ok session ∧ session.Fresh g path.text ∧
      session.values.hide = if Session.storedText params .hide = [] then config.hide.value
        else Session.storedText params .hide := by
  -- the parameters come first, and the snapshot is there
  cases hparams : openParams choice.url with
  | error failure =>
    have hurl : ∃ e, failure = .url e := by
      unfold openParams at hparams
      split at hparams
      · cases hparams
      · rename_i url _
        cases hparse : Params.ofUrl url with
        | error e =>
          rw [hparse] at hparams
          cases hparams
          exact ⟨e, rfl⟩
        | ok params =>
          rw [hparse] at hparams
          cases hparams
    obtain ⟨e, rfl⟩ := hurl
    refine .inl ⟨e, ?_⟩
    rw [openSession, hparams]
    rfl
  | ok params =>
    refine .inr ⟨params, (config.startSession params { graphs := [(path.text, g)] }).report
      [.loaded path.text g.liveIds.length], rfl, ?_, ⟨?_, rfl, rfl, rfl⟩, ?_⟩
    · rw [openSession, hparams, hload]
      rfl
    · show (Entries.get? [(path.text, g)] path.text).getD {} = g
      simp [Entries.get?]
    · exact (Session.start_spec config.display params ⟨config.find.value, config.hide.value⟩
        ⟨config.find.presets, config.hide.presets⟩ { graphs := [(path.text, g)] }).2 .hide

/-- `urlLines` prints the URL, unless there is none or it cannot be written out. -/
theorem urlLines_spec (session : Session) :
    (∃ run, urlLines session = .error (.unwritable run)) ∨
      ∃ url : Option Text, urlLines session = .ok (url.toList.map fun url => row ["url", url]) := by
  unfold urlLines
  split
  · exact .inr ⟨none, rfl⟩
  · rename_i url _
    split
    · exact .inl ⟨_, rfl⟩
    · exact .inr ⟨some url, rfl⟩

/-- `ofEvaluation` fails because of the expression when its input shows a message at the end. -/
theorem ofEvaluation_failsOnQuery_iff {step : Session.Step Unit}
    {outcome : Session → List Notice × List Text} :
    (ofEvaluation step channel outcome).FailsOnQuery ↔
      step.2 = .ok () ∧ (step.1.compiler.message channel).isSome = true := by
  obtain ⟨session, result⟩ := step
  unfold FailsOnQuery ofEvaluation
  cases result with
  | error e => simp [Failure.isQuery]
  | ok u =>
    cases hmessage : session.compiler.message channel with
    | some message => simp [hmessage, Failure.isQuery]
    | none =>
      simp only [hmessage]
      rcases (urlLines_spec session) with ⟨run, hrun⟩ | ⟨url, hurl⟩
      · simp [hrun, Except.map, Failure.isQuery]
      · simp [hurl, Except.map]

/-- `ofEvaluation` prints what comes of the evaluation, and the URL if there is one. -/
theorem ofEvaluation_lines {step : Session.Step Unit}
    {outcome : Session → List Notice × List Text} {lines : List Text}
    (h : (ofEvaluation step channel outcome).result = .ok lines) :
    step.2 = .ok () ∧ ∃ url : Option Text,
      lines = (outcome step.1).2 ++ url.toList.map fun url => row ["url", url] := by
  obtain ⟨session, result⟩ := step
  unfold ofEvaluation at h
  cases result with
  | error e => cases h
  | ok u =>
    refine ⟨rfl, ?_⟩
    cases hmessage : session.compiler.message channel with
    -- an invalid expression prints nothing, so no lines come of it
    | some message =>
      simp only [hmessage] at h
      cases h
    | none =>
      simp only [hmessage] at h
      obtain ⟨urls, hurls, rfl⟩ := Except.map_eq_ok h
      -- the one line that may follow is that of the URL
      rcases (urlLines_spec session) with ⟨run, hrun⟩ | ⟨url, hurl⟩
      · cases hrun.symm.trans hurls
      · obtain rfl := Except.ok.inj (hurl.symm.trans hurls)
        exact ⟨url, rfl⟩

/-- The report on an expression that is tried on a snapshot. -/
def trial (config : Config) (choice : SnapshotChoice) (path : Path) (entry : FileEntry)
    (channel : Channel) (expression : Text) (outcome : Session → List Notice × List Text) : Report :=
  match openSession config choice path entry with
  | .error failure => .ofResult (.error failure)
  | .ok session => ofEvaluation (evaluate session path channel expression) channel outcome

/-- `trial` fails because of an expression when there is an error in it, and it is tried at all. -/
theorem trial_failsOnQuery_iff (hload : loadGraph path entry = .ok g)
    {outcome : Session → List Notice × List Text} :
    (trial config choice path entry channel expression outcome).FailsOnQuery ↔
      (Session.errorOf? expression).isSome = true ∧
        Tries config choice path entry channel expression := by
  unfold trial Tries
  rcases openSession_spec config choice hload with ⟨e, hrefused⟩ | ⟨params, session, -, hopen, hfresh, -⟩
  · rw [hrefused]
    simp [FailsOnQuery, ofResult, Failure.isQuery]
  · rw [hopen]
    simp only [Except.ok.injEq, exists_eq_left']
    rw [ofEvaluation_failsOnQuery_iff]
    have hg := untouched_of_loadGraph hload
    unfold evaluate
    cases hattach : session.attach path.text none with
    | mk s result =>
      cases result with
      | error e => simp
      | ok u =>
        -- the texts of the session are those from before the snapshot was attached
        have hok : (session.attach path.text none).2 = .ok () := congrArg Prod.snd hattach
        have htried := hfresh.tried hg.nodup hg.live hok
        rw [hattach] at htried
        have hvalues := session.attach_values path.text none
        rw [hattach] at hvalues
        rw [htried.setValue_shows_iff, hvalues, and_comm]
        simp only [true_and]

/-- Whether nothing is hidden from the start: neither the configuration nor the URL says what. -/
def HidesNothing (config : Config) (choice : SnapshotChoice) : Prop :=
  config.hide.value = [] ∧
    ∀ params, openParams choice.url = .ok params → Session.storedText params .hide = []

/-- `HidesNothing` is decided by the configuration and the URL. -/
instance : Decidable (HidesNothing config choice) :=
  decidable_of_iff (config.hide.value = [] ∧ (openParams choice.url).toOption.all fun params =>
      Session.storedText params .hide = []) <| by
    unfold HidesNothing
    cases openParams choice.url <;> simp [Except.toOption]

/-- `find` prints what the selector of the expression selects in the snapshot. -/
theorem find_lines (hload : loadGraph path entry = .ok g) (hhide : HidesNothing config choice)
    {selector : Option Text} (hselector : Session.selectorOf? expression = some selector)
    {lines : List Text} (h : (find config expression choice path entry).result = .ok lines) :
    ∃ url : Option Text, lines =
      (g.elements.filter fun e => e.Matches selector).map (fun e => row ["found", e.id]) ++
        url.toList.map fun url => row ["url", url] := by
  unfold find at h
  rcases openSession_spec config choice hload with ⟨e, hrefused⟩ |
    ⟨params, session, hparams, hopen, hfresh, hvalue⟩
  · rw [hrefused] at h
    cases h
  · rw [hopen] at h
    -- nothing is printed unless both steps of the evaluation succeed
    obtain ⟨hok, url, rfl⟩ := ofEvaluation_lines h
    have hg := untouched_of_loadGraph hload
    rw [if_pos (hhide.2 params hparams), hhide.1] at hvalue
    unfold evaluate at hok ⊢
    cases hattach : session.attach path.text none with
    | mk s result =>
      rw [hattach] at hok
      cases result with
      | error e => cases hok
      | ok u =>
        have hattached : (session.attach path.text none).2 = .ok () := congrArg Prod.snd hattach
        have hsearched := hfresh.searched_attach hvalue hattached
        rw [hattach] at hsearched
        have hhits := Graph.hits_eq hg.live
          (hsearched.setValue_found hselector hok)
        refine ⟨url, ?_⟩
        rw [findOutcome]
        dsimp only
        rw [hhits, List.map_map]
        rfl

/-! ## Agreement -/

/-- Finding and hiding fail because of an expression just when compiling it does and it is tried: the
session opens, attaches the snapshot without a failure, and starts with another text than the expression.
When nothing is hidden from the start, what is found are the elements of the snapshot that match the
selector which compiling prints, in their order. -/
theorem commands_agree (config : Config) (choice : SnapshotChoice)
    (hload : loadGraph path entry = .ok g) (expression : Text) :
    ((find config expression choice path entry).FailsOnQuery ↔
      ((compile config .find expression).Fails ∧ Session.isReadable expression = true) ∧
        Tries config choice path entry .find expression) ∧
    (∀ compress, (hide config expression choice compress path entry).FailsOnQuery ↔
      ((compile config .hide expression).Fails ∧ Session.isReadable expression = true) ∧
        Tries (withCompress config compress) choice path entry .hide expression) ∧
    (HidesNothing config choice → ∀ printed lines,
      (compile config .find expression).result = .ok printed →
      (find config expression choice path entry).result = .ok lines →
      ∃ (query : Option CompiledQuery) (requests : List OptionRequest) (url : Option Text),
        printed = selectorLines query requests ∧
        lines = (g.elements.filter fun e => e.Matches (query.map (·.render))).map
          (fun e => row ["found", e.id]) ++ url.toList.map fun url => row ["url", url]) := by
  refine ⟨?_, fun compress => ?_, fun hhide printed lines hprinted hlines => ?_⟩
  · -- both commands fail on an expression exactly where compiling it fails and it is tried at all
    rw [compile_fails_iff]
    exact trial_failsOnQuery_iff hload
  · rw [compile_fails_iff]
    exact trial_failsOnQuery_iff hload
  · obtain ⟨query, requests, hsame, hselector⟩ := compile_lines hprinted
    obtain ⟨url, hfound⟩ := find_lines hload hhide hselector hlines
    exact ⟨query, requests, url, hsame, hfound⟩

/-- A configuration that says nothing. -/
def bareConfig : Config where
  runtime := { threshold := .info, toFile := false, directory := [] }
  display := {}
  find := {}
  hide := {}

/-- A file that holds one node. -/
def soleFile : FileEntry :=
  .file "[\x7b\"data\": \x7b\"id\": \"a\", \"app\": \"x\"\x7d\x7d]"

/-- `loadGraph` loads `soleFile`. -/
theorem loadGraph_soleFile : ∃ g, loadGraph {} soleFile = .ok g := by
  cases hload : loadGraph {} soleFile with
  | error failure =>
    have hloads : (loadGraph {} soleFile).toBool = true := by decide +kernel
    rw [hload] at hloads
    cases hloads
  | ok g => exact ⟨g, rfl⟩

/-- `Fails` holds of every report without lines. -/
theorem exists_ok_of_not_fails {r : Report} (h : ¬r.Fails) : ∃ lines, r.result = .ok lines := by
  unfold Fails at h
  cases hresult : r.result with
  | error failure => exact absurd ⟨failure, hresult⟩ h
  | ok lines => exact ⟨lines, rfl⟩

/-- The URL says what is to be found. An expression that does not compile fails all the same, and the
expression of the URL finds what its selector selects. -/
theorem commands_agree_replaced :
    ∃ g, loadGraph {} soleFile = .ok g ∧
      let choice : SnapshotChoice := ⟨none, some "http://h/?graphFind=app+%3D+x"⟩
      (find bareConfig "bogus = 1" choice {} soleFile).FailsOnQuery ∧
      ∃ (query : Option CompiledQuery) (requests : List OptionRequest) (url : Option Text),
        (compile bareConfig .find "app = x").result = .ok (selectorLines query requests) ∧
        (find bareConfig "app = x" choice {} soleFile).result =
          .ok ((g.elements.filter fun e => e.Matches (query.map (·.render))).map
            (fun e => row ["found", e.id]) ++ url.toList.map fun url => row ["url", url]) := by
  obtain ⟨g, hload⟩ := loadGraph_soleFile
  let choice : SnapshotChoice := ⟨none, some "http://h/?graphFind=app+%3D+x"⟩
  have htried := commands_agree bareConfig choice hload "bogus = 1"
  have hfound := commands_agree bareConfig choice hload "app = x"
  obtain ⟨printed, hprinted⟩ := exists_ok_of_not_fails
    (show ¬(compile bareConfig .find "app = x").Fails by decide +kernel)
  obtain ⟨lines, hlines⟩ := exists_ok_of_not_fails
    (show ¬(find bareConfig "app = x" choice {} soleFile).Fails by decide +kernel)
  refine ⟨g, hload, htried.1.2 ⟨⟨by decide +kernel, by decide +kernel⟩, by decide +kernel⟩, ?_⟩
  obtain ⟨query, requests, url, rfl, rfl⟩ := hfound.2.2 (by decide +kernel) printed lines hprinted hlines
  exact ⟨query, requests, url, hprinted, hlines⟩

/-- The URL says the same as an expression that does not compile. Attaching the snapshot shows its
message, and confirming the same text takes the message away and compiles nothing, so that finding
succeeds. -/
theorem commands_agree_repeated :
    (∃ g, loadGraph {} soleFile = .ok g) ∧ (compile bareConfig .find "bogus = 1").FailsOnQuery ∧
      ¬(find bareConfig "bogus = 1" ⟨none, some "http://h/?graphFind=bogus+%3D+1"⟩ {} soleFile).Fails :=
  ⟨loadGraph_soleFile, by decide +kernel, by decide +kernel⟩

end Report

end MeshLens.CommandLine
