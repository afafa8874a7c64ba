import Wireframe.Batch
import Wireframe.Proofs.Store.Files
import Wireframe.Proofs.Volume.Changes

/-!
# What comes of one job

Drawing a page takes several steps, each of which may fail: the page is read, the directories that
the drawing lies in are made, and the drawing is written. Whatever is on the volume, whatever the
system says, and even if the drawing goes to the place of its own page, there are three outcomes
(`Batch.jobOutcome_attempt`). A page that is not read leaves the volume as it was. A drawing that is
not written leaves every file as it was, but directories that it would lie in may be new. A drawing
that is written is what the output holds then, and besides only such directories are new.

There are two ways to more than that (`Batch.not_drawsCleanly`). A write that the system stops is a
write that has begun, and what the output held before is lost. And an output whose path goes up
again has directories made that it does not lie in.
-/

namespace Wireframe.Batch

open Disk (bind_apply)

variable {theme : Theme Float} {s s' : Session} {job : Job} {answer : Except BatchError Nat}

/-- What comes of a job in a session: what is answered, and the session afterwards. -/
def attempt (theme : Theme Float) (s : Session) (job : Job) : Except BatchError Nat × Session :=
  renderFile (m := StateM Session) theme job.input job.output s

/-! ### Outcomes -/

/-- The directories that are made for a drawing. -/
def above (output : Path) : List Path := (output.parent?.map Path.ancestors).getD []

/-- The directories for a drawing that it lies in, as its path is written. -/
def around (output : Path) : List Path := (output.parent?.map Path.enclosing).getD []

/-- What may come of a job. -/
inductive JobOutcome (theme : Theme Float) (s : Session) (job : Job) :
    Except BatchError Nat → Session → Prop
  /-- The system does not let the page be read, or there is none, or it is no text. Nothing has
  changed. -/
  | unread {s' : Session} (fault : Fault)
      (hread : s.next.1 ≠ .granted ∨ ∀ text : String, s.volume.readBytes job.input ≠ .ok text.toUTF8)
      (hsame : s'.volume = s.volume) : JobOutcome theme s job (.error (.read job.input fault)) s'
  /-- The drawing or the directory for it cannot be written. Only directories are new, unless the
  system has stopped the write: then the output holds a beginning of the drawing. -/
  | unwritten {s' : Session} (text : String) (path : Path) (fault : Fault)
      (hread : s.volume.readBytes job.input = .ok text.toUTF8)
      (hpath : path = job.output ∨ job.output.parent? = some path)
      (hputs : s.Puts (above job.output) job.output (Svg.ofText theme text).toUTF8 s' false) :
      JobOutcome theme s job (.error (.write path fault)) s'
  /-- The output holds the drawing of the page as it was read, whose length in bytes is answered,
  and besides only directories are new. -/
  | drawn {s' : Session} (text : String) (hread : s.volume.readBytes job.input = .ok text.toUTF8)
      (hputs : s.Puts (above job.output) job.output (Svg.ofText theme text).toUTF8 s' true) :
      JobOutcome theme s job (.ok (Svg.ofText theme text).toUTF8.size) s'

/-- What should come of a job: a failure costs no file what it held, and only directories are new
that the drawing lies in. -/
inductive CleanOutcome (theme : Theme Float) (s : Session) (job : Job) :
    Except BatchError Nat → Session → Prop
  | unread {s' : Session} (fault : Fault) (hsame : s'.volume = s.volume) :
      CleanOutcome theme s job (.error (.read job.input fault)) s'
  | unwritten {s' : Session} (path : Path) (fault : Fault)
      (hgrows : s.volume.Grows (around job.output) s'.volume) :
      CleanOutcome theme s job (.error (.write path fault)) s'
  | drawn {s' : Session} (text : String) (hread : s.volume.readBytes job.input = .ok text.toUTF8)
      (hdrawing : s'.volume.readBytes job.output = .ok (Svg.ofText theme text).toUTF8)
      (htouches : s.volume.Touches (around job.output) job.output s'.volume) :
      CleanOutcome theme s job (.ok (Svg.ofText theme text).toUTF8.size) s'

/-- Whether what comes of a job in a session is what should. -/
def DrawsCleanly (theme : Theme Float) (s : Session) (job : Job) : Prop :=
  CleanOutcome theme s job (attempt theme s job).1 (attempt theme s job).2

/-- The parent of a path that never goes up does not go up either. -/
theorem around_eq {output : Path} (h : Path.Component.up ∉ output.components) :
    around output = above output := by
  cases hparent : output.parent? with
  | none => rw [around, above, hparent]; rfl
  | some parent =>
    have hup : Path.Component.up ∉ parent.components := by
      rw [Path.components_parent hparent]
      exact fun hmem => h (List.mem_of_mem_dropLast hmem)
    rw [around, above, hparent]
    exact Path.enclosing_eq hup

/-- An outcome is as it should be if the system stops no write and the output does not go up. -/
theorem JobOutcome.clean (h : JobOutcome theme s job answer s')
    (hluck : ∀ count fault, .stopped count fault ∉ s.luck)
    (houtput : Path.Component.up ∉ job.output.components) :
    CleanOutcome theme s job answer s' := by
  cases h with
  | unread fault _ hsame => exact .unread fault hsame
  | unwritten text path fault _ _ hputs =>
    refine .unwritten path fault ?_
    rw [around_eq houtput]
    exact hputs.grows hluck
  | drawn text hread hputs =>
    refine .drawn text hread (hputs.done rfl) ?_
    rw [around_eq houtput]
    exact hputs.touches

/-! ### Steps of a job -/

/-- A page is read, or there is a reason that it is not. -/
theorem readPage_cases (s : Session) (path : Path) :
    (∃ fault, (readPage path : StateM Session _) s = (.error (.read path fault), s.next.2) ∧
        (s.next.1 ≠ .granted ∨ ∀ text : String, s.volume.readBytes path ≠ .ok text.toUTF8)) ∨
      ∃ text, (readPage path : StateM Session _) s = (.ok text, s.next.2) ∧
        s.volume.readBytes path = .ok text.toUTF8 := by
  have hvolume := s.volume_next
  have hread : (readPage path : StateM Session _) s =
      (((s.ask (·.readBytes path)).1.bind Disk.textOfBytes).mapError (.read path),
        (s.ask (·.readBytes path)).2) := rfl
  rw [hread, s.ask_snd, Session.ask]
  -- what the system says comes first: only a granted step looks at the volume
  generalize s.next = step at hvolume ⊢
  obtain ⟨_ | fault | ⟨_, fault⟩, s₁⟩ := step
  · dsimp only at hvolume ⊢
    rw [hvolume]
    cases htext : (s.volume.readBytes path).bind Disk.textOfBytes with
    | error fault =>
      refine .inl ⟨fault, rfl, .inr fun text hbytes => ?_⟩
      rw [hbytes, Except.bind, Disk.textOfBytes_toUTF8] at htext
      cases htext
    | ok text =>
      refine .inr ⟨text, rfl, ?_⟩
      cases hbytes : s.volume.readBytes path with
      | error fault =>
        rw [hbytes] at htext
        cases htext
      | ok bytes =>
        rw [hbytes] at htext
        rw [Disk.textOfBytes_eq_ok_iff.mp htext]
  · exact .inl ⟨fault, rfl, .inl (by simp)⟩
  · exact .inl ⟨fault, rfl, .inl (by simp)⟩

/-- The directories for a drawing are made, or its parent cannot be written. -/
theorem makeParent_cases (s : Session) (output : Path) :
    s.Grows (above output) ((makeParent output : StateM Session _) s).2 ∧
      (((makeParent output : StateM Session _) s).1 = .ok () ∨ ∃ parent fault,
        output.parent? = some parent ∧
          ((makeParent output : StateM Session _) s).1 = .error (.write parent fault)) := by
  rw [makeParent, above]
  cases hparent : output.parent? with
  | none => exact ⟨.refl s _, .inl rfl⟩
  | some parent =>
    by_cases hempty : parent.isEmpty = true
    · rw [Option.filter_some_neg (by simpa using hempty)]
      exact ⟨.refl s _, .inl rfl⟩
    · rw [Option.filter_some_pos (by simpa using hempty)]
      have hmade := s.makeChain_grows parent.ancestors
      simp only [bind_apply, Disk.makeDirectories]
      generalize (Disk.makeChain parent.ancestors : StateM Session _) s = made at hmade ⊢
      obtain ⟨fault | ⟨⟩, s₁⟩ := made
      · exact ⟨hmade, .inr ⟨parent, fault, rfl, rfl⟩⟩
      · exact ⟨hmade, .inl rfl⟩

/-- What comes of a job is one of the outcomes. -/
theorem jobOutcome (theme : Theme Float) (s : Session) (job : Job) :
    JobOutcome theme s job (attempt theme s job).1 (attempt theme s job).2 := by
  rw [attempt, renderFile]
  simp only [bind_apply]
  rcases readPage_cases s job.input with ⟨fault, hpage, hread⟩ | ⟨text, hpage, hread⟩
  · rw [hpage]
    exact .unread fault hread s.volume_next
  · rw [hpage]
    simp only [bind_apply]
    -- from here on the page is known, and only directories can have been made
    obtain ⟨hgrows, hcases⟩ := makeParent_cases s.next.2 job.output
    replace hgrows := (s.next_grows _).trans hgrows
    generalize (makeParent job.output : StateM Session _) s.next.2 = made at hgrows hcases ⊢
    obtain ⟨e | ⟨⟩, s₁⟩ := made
    · obtain hok | ⟨parent, fault, hparent, herror⟩ := hcases
      · cases hok
      · cases herror
        exact .unwritten text parent fault hread (.inr hparent)
          (Session.puts_of_grows hgrows.volume _ _)
    · have hputs := hgrows.puts (s₁.wrote_writeBytes job.output (Svg.ofText theme text).toUTF8)
      have hwrite : (Disk.writeText job.output (Svg.ofText theme text) : StateM Session _) s₁ =
          s₁.writeBytes job.output (Svg.ofText theme text).toUTF8 := rfl
      simp only [bind_apply, hwrite]
      generalize s₁.writeBytes job.output (Svg.ofText theme text).toUTF8 = written at hputs ⊢
      obtain ⟨fault | ⟨⟩, s₂⟩ := written
      · exact .unwritten text job.output fault hread (.inl rfl) hputs
      · exact .drawn text hread hputs

/-- **What comes of a job**, whatever the page, the output, the theme and the volume are and
whatever the system says, is one of the outcomes. It is as it should be if the system stops no write
and the path of the output does not go up. -/
theorem jobOutcome_attempt (theme : Theme Float) (s : Session) (job : Job) :
    JobOutcome theme s job (attempt theme s job).1 (attempt theme s job).2 ∧
      ((∀ count fault, .stopped count fault ∉ s.luck) →
        Path.Component.up ∉ job.output.components → DrawsCleanly theme s job) :=
  ⟨jobOutcome theme s job, fun hluck houtput => (jobOutcome theme s job).clean hluck houtput⟩

/-- An empty page, and something under the name of its drawing. -/
def drafted : Volume :=
  ((Volume.bare.put ["page.txt"] (.file 0)).put ["page.svg"] (.file 1)).fill 1 "draft".toUTF8

/-- A page is drawn over what was under the name of its drawing. -/
theorem drawsCleanly_drafted :
    DrawsCleanly .standard ⟨drafted, []⟩ ⟨⟨"page.txt"⟩, ⟨"page.svg"⟩⟩ :=
  (jobOutcome_attempt .standard ⟨drafted, []⟩ ⟨⟨"page.txt"⟩, ⟨"page.svg"⟩⟩).2 nofun (by decide)

/-! ### Outcomes that should not be -/

/-- What a system says when there is no room for a single byte. -/
def noRoom : Luck := .stopped 0 (.other "No space left on device (os error 28)")

/-- A drawing is not empty. -/
theorem size_drawing_pos (theme : Theme Float) (text : String) :
    0 < (Svg.ofText theme text).toUTF8.size := by
  rw [Nat.pos_iff_ne_zero]
  intro hsize
  have hempty : Svg.ofText theme text = "" := String.utf8ByteSize_eq_zero_iff.mp hsize
  have hnil := congrArg String.toList hempty
  rw [Svg.ofText, Svg.ofDocument, String.toList_ofList, Xml.document] at hnil
  exact absurd (List.append_eq_nil_iff.mp hnil).1 (by decide)

/-- A page that is read, with the directory for its drawing made, is not written if the drawing is
not. -/
theorem attempt_of_steps {s₁ s₂ s₃ : Session} {text : String} {fault : Fault}
    (hpage : (readPage job.input : StateM Session _) s = (.ok text, s₁))
    (hparent : (makeParent job.output : StateM Session _) s₁ = (.ok (), s₂))
    (hwrite : s₂.writeBytes job.output (Svg.ofText theme text).toUTF8 = (.error fault, s₃)) :
    attempt theme s job = (.error (.write job.output fault), s₃) := by
  have hdrawing : (Disk.writeText job.output (Svg.ofText theme text) : StateM Session _) s₂ =
      (.error fault, s₃) := hwrite
  rw [attempt, renderFile]
  simp only [bind_apply, hpage, hparent, hdrawing]
  rfl

/-- A file is emptied when there is no room for the bytes that should go into it. -/
theorem writeBytes_noRoom {drawing : ByteArray} (h : 0 < drawing.size) :
    Session.writeBytes ⟨drafted, [noRoom]⟩ ⟨"page.svg"⟩ drawing =
      (.error (.other "No space left on device (os error 28)"), ⟨drafted.fill 1 .empty, []⟩) := by
  have hnone : drawing.extract 0 0 = .empty := ByteArray.extract_eq_empty_iff.mpr (by simp)
  have htarget : drafted.target ⟨"page.svg"⟩ = .ok ["page.svg"] := rfl
  have hfill : drafted.write ["page.svg"] .empty = drafted.fill 1 .empty := rfl
  rw [Session.writeBytes]
  simp only [Session.next, noRoom, Session.outcome, if_pos h, hnone, htarget, hfill]

/-- If the disk is full when the drawing is written, what was under its name is lost. -/
theorem attempt_noRoom :
    attempt .standard ⟨drafted, [.granted, noRoom]⟩ ⟨⟨"page.txt"⟩, ⟨"page.svg"⟩⟩ =
      (.error (.write ⟨"page.svg"⟩ (.other "No space left on device (os error 28)")),
        ⟨drafted.fill 1 .empty, []⟩) := by
  have hpage : (readPage ⟨"page.txt"⟩ : StateM Session _) ⟨drafted, [.granted, noRoom]⟩ =
      (.ok "", ⟨drafted, [noRoom]⟩) := rfl
  have hparent : (makeParent ⟨"page.svg"⟩ : StateM Session _) ⟨drafted, [noRoom]⟩ =
      (.ok (), ⟨drafted, [noRoom]⟩) := rfl
  exact attempt_of_steps hpage hparent (writeBytes_noRoom (size_drawing_pos .standard ""))

theorem not_drawsCleanly_noRoom :
    ¬ DrawsCleanly .standard ⟨drafted, [.granted, noRoom]⟩ ⟨⟨"page.txt"⟩, ⟨"page.svg"⟩⟩ := by
  intro h
  rw [DrawsCleanly, attempt_noRoom] at h
  cases h with
  | unwritten path fault hgrows => exact absurd (congrFun hgrows.contents 1) (by decide +kernel)

/-- A directory is made in which the drawing does not lie. -/
theorem attempt_up : (attempt .standard ⟨drafted, []⟩ ⟨⟨"page.txt"⟩, ⟨"docs/../page.svg"⟩⟩).2 =
    ⟨(drafted.put ["docs"] .directory).fill 1
      (Svg.ofText (Theme.standard : Theme Float) "").toUTF8, []⟩ := rfl

/-- A new directory that is as it should be is found under a path in which the drawing lies. -/
theorem CleanOutcome.exists_around (h : CleanOutcome theme s job answer s') {place : Location}
    (hnone : s.volume.node? place = none) (hnode : s'.volume.node? place = some .directory) :
    ∃ dir ∈ around job.output, s'.volume.locate dir = .ok place := by
  have hsome : s'.volume.node? place ≠ none := by
    rw [hnode]
    exact Option.some_ne_none _
  cases h with
  | unread fault hsame =>
    rw [hsame] at hsome
    exact absurd hnone hsome
  | unwritten path fault hgrows =>
    obtain ⟨dir, hdir, hfind⟩ := hgrows.made place hnone hsome
    exact ⟨dir, hdir, (Volume.find_eq_ok_iff.mp hfind).2.1⟩
  | drawn text _ _ htouches =>
    rcases htouches.made place hnone hsome with ⟨dir, hdir, hfind⟩ | ⟨number, hfind, -⟩ <;>
      obtain ⟨-, hlocate, hfound⟩ := Volume.find_eq_ok_iff.mp hfind
    · exact ⟨dir, hdir, hlocate⟩
    · rw [hnode] at hfound
      cases hfound

theorem not_drawsCleanly_up :
    ¬ DrawsCleanly .standard ⟨drafted, []⟩ ⟨⟨"page.txt"⟩, ⟨"docs/../page.svg"⟩⟩ := by
  intro h
  have hnone : drafted.node? ["docs"] = none := by decide +kernel
  have haround : around ⟨"docs/../page.svg"⟩ = [⟨"docs/.."⟩] := by decide +kernel
  have hroot (left : ByteArray) :
      ((drafted.put ["docs"] .directory).fill 1 left).locate ⟨"docs/.."⟩ = .ok [] := rfl
  rw [DrawsCleanly, attempt_up] at h
  generalize (Svg.ofText (Theme.standard : Theme Float) "").toUTF8 = left at h
  have hmade : ((drafted.put ["docs"] .directory).fill 1 left).node? ["docs"] =
      some .directory := by
    rw [Volume.node?_fill, Volume.node?_put (by decide), if_pos rfl]
  obtain ⟨dir, hdir, hlocate⟩ := h.exists_around hnone hmade
  rw [haround, List.mem_singleton] at hdir
  rw [hdir, hroot] at hlocate
  exact absurd hlocate (by decide)

/-- A write that is stopped and a path that goes up: each of them makes something come of a job that
should not. -/
theorem not_drawsCleanly :
    ¬ DrawsCleanly .standard ⟨drafted, [.granted, noRoom]⟩ ⟨⟨"page.txt"⟩, ⟨"page.svg"⟩⟩ ∧
      ¬ DrawsCleanly .standard ⟨drafted, []⟩ ⟨⟨"page.txt"⟩, ⟨"docs/../page.svg"⟩⟩ :=
  ⟨not_drawsCleanly_noRoom, not_drawsCleanly_up⟩

end Wireframe.Batch
