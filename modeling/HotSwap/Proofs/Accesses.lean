/-
What the accesses to the four files do, and what the journal then shows.

* `FilePaths.Trail` — a stretch of accesses that leaves the desk alone and of which
  every recorded disk shows the four files in one of certain ways;
* `FilePaths.Done` — accesses that went well and left the four files in one way,
  with each disk in between showing them as before or as after;
* `FilePaths.Refused` — accesses of which one was refused, and that left the four
  files alone;
* `ends_readFile`, `ends_discardFile`, `ends_writeAtomically` — each access ends in
  one of the two.

Design notes: the host decides whether an access is refused and may change its
state while doing so; `view` is what of its state such a decision leaves alone.
-/
import HotSwap.Proofs.Chronicle
import HotSwap.Proofs.Ends
import HotSwap.Proofs.FourFiles

namespace HotSwap

/-- The small choices of the host leave a view of its state alone. -/
structure Link.Steady {σ β : Type} (link : Link σ) (view : σ → β) : Prop where
  gate : ∀ a s, view (link.gate a s).2 = view s
  freshId : ∀ s, view (link.freshId s).2 = view s
  now : ∀ s, view (link.now s).2 = view s

namespace FilePaths

variable {σ β : Type} {p : FilePaths} {view : σ → β} {link : Link σ} {w w' w'' : World σ}
  {c : Contents} {s : Slot}

/-- A stretch of accesses: each entry of the journal is about one, and the disk
that it left shows the four files as `φ` says. -/
structure Trail (p : FilePaths) (view : σ → β) (φ : Contents → Prop) (w w' : World σ) : Prop where
  desk : w'.desk = w.desk
  host : view w'.host = view w.host
  grown : w.Grown w'
  shows : ∀ e ∈ w.since w', ∃ disk, e.disk? = some disk ∧ φ (p.contents disk)

variable {φ ψ : Contents → Prop}

theorem Trail.refl (p : FilePaths) (view : σ → β) (φ : Contents → Prop) (w : World σ) :
    p.Trail view φ w w where
  desk := rfl
  host := rfl
  grown := .refl w
  shows e he := by
    rw [World.since_self] at he
    cases he

theorem Trail.mono (h : p.Trail view φ w w') (hφ : ∀ c, φ c → ψ c) : p.Trail view ψ w w' where
  desk := h.desk
  host := h.host
  grown := h.grown
  shows e he := by
    obtain ⟨disk, hdisk, hshows⟩ := h.shows e he
    exact ⟨disk, hdisk, hφ _ hshows⟩

theorem Trail.trans (h : p.Trail view φ w w') (h' : p.Trail view φ w' w'') :
    p.Trail view φ w w'' where
  desk := h'.desk.trans h.desk
  host := h'.host.trans h.host
  grown := h.grown.trans h'.grown
  shows e he := by
    rw [h.grown.since_trans h'.grown] at he
    rcases List.mem_append.mp he with he | he
    · exact h.shows e he
    · exact h'.shows e he

/-- A trail does not look at the log, nor at the books. -/
theorem Trail.noted (h : p.Trail view φ w w') (log : Array Record) (books : Bookkeeping) :
    p.Trail view φ w { w' with log, books } :=
  ⟨h.desk, h.host, h.grown, h.shows⟩

/-- The accesses went well: the four files are now `c`. -/
structure Done (p : FilePaths) (view : σ → β) (c : Contents) (w w' : World σ) : Prop
    extends Trail p view (fun k => k = p.contents w.disk ∨ k = c) w w' where
  books : w'.books = w.books
  contents : p.contents w'.disk = c

/-- An access was refused; the four files are as before. -/
structure Refused (p : FilePaths) (view : σ → β) (w w' : World σ) : Prop
    extends Done p view (p.contents w.disk) w w' where
  fails : w.Fails w'

/-- One access, with the entry about it. -/
theorem Done.enter {entry : Entry} (hdesk : w'.desk = w.desk) (hbooks : w'.books = w.books)
    (hhost : view w'.host = view w.host) (hjournal : w'.journal = w.journal)
    (hentry : entry.disk? = some w'.disk) (hc : p.contents w'.disk = c) :
    p.Done view c w (w'.enter entry) where
  desk := hdesk
  books := hbooks
  host := hhost
  contents := hc
  grown := by
    rw [World.Grown, ← hjournal]
    exact List.prefix_append _ _
  shows e he := by
    rw [World.since, ← hjournal, World.enter, List.drop_left] at he
    obtain rfl := List.mem_singleton.mp he
    exact ⟨w'.disk, hentry, .inr hc⟩

theorem Refused.enter {entry : Entry} (hdesk : w'.desk = w.desk) (hbooks : w'.books = w.books)
    (hhost : view w'.host = view w.host) (hjournal : w'.journal = w.journal)
    (hentry : entry.disk? = some w'.disk) (hc : p.contents w'.disk = p.contents w.disk)
    (hfailed : entry.failed = true) : p.Refused view w (w'.enter entry) where
  toDone := .enter hdesk hbooks hhost hjournal hentry hc
  fails := by
    refine ⟨entry, ?_, hfailed⟩
    rw [World.since, ← hjournal, World.enter, List.drop_left]
    exact List.mem_singleton_self entry

theorem Done.log (h : p.Done view c w w') (log : Array Record) :
    p.Done view c w { w' with log } :=
  ⟨h.toTrail.noted log w'.books, h.books, h.contents⟩

theorem Refused.log (h : p.Refused view w w') (log : Array Record) :
    p.Refused view w { w' with log } :=
  ⟨h.toDone.log log, h.fails⟩

/-- Accesses that go on after some that have left the four files alone. -/
theorem Done.after (h : p.Done view (p.contents w.disk) w w') (h' : p.Done view c w' w'') :
    p.Done view c w w'' where
  books := h'.books.trans h.books
  contents := h'.contents
  toTrail := by
    refine (h.toTrail.mono fun k hk => ?_).trans (h'.toTrail.mono fun k hk => ?_)
    · exact .inl (hk.elim id id)
    · rwa [h.contents] at hk

theorem Refused.after (h : p.Done view (p.contents w.disk) w w') (h' : p.Refused view w' w'') :
    p.Refused view w w'' where
  toDone := by
    have := h.after h'.toDone
    rwa [h.contents] at this
  fails := h'.fails.earlier h.grown h'.grown

theorem Refused.before (h : p.Refused view w w') (h' : p.Done view (p.contents w'.disk) w' w'') :
    p.Refused view w w'' where
  toDone := by
    have := h.toDone.after h'
    rwa [h.contents] at this
  fails := h.fails.later h.grown h'.grown

end FilePaths

/-! ### Single accesses -/

section

variable {σ β : Type} {p : FilePaths} {view : σ → β} {link : Link σ} {w : World σ} {s : Slot}

/-- An access of the link: it is refused, or goes on once the host has had its say. -/
theorem ends_access {α : Type} {a : Access} {body : Act σ α} {P : α → World σ → Prop}
    (hlink : link.Steady view)
    (hbody : body.Ends { w with host := (link.gate a w.host).2 }
      (fun x w' => P x (w'.enter (.accessed a none w'.disk)))
      (fun e w' => (∃ refusal, e = .system refusal) ∧
        p.Refused view w (w'.enter (.accessed a (some e) w'.disk)))) :
    (Act.noted (.accessed a) (do link.leave a; body)).Ends w P
      (fun e w' => (∃ refusal, e = .system refusal) ∧ p.Refused view w w') := by
  rw [Act.ends_noted, Act.ends_bind, Link.leave, Act.ends_bind, Act.ends_choose]
  split
  · exact hbody
  · exact ⟨⟨_, rfl⟩, .enter rfl rfl (hlink.gate _ _) rfl rfl rfl rfl⟩

theorem ends_readFile (hlink : link.Steady view) (p : FilePaths) (s : Slot) (w : World σ) :
    (link.readFile (p.path s)).Ends w
      (fun content w' => p.contents w.disk s = some (.file content) ∧
        p.Done view (p.contents w.disk) w w')
      (fun e w' => (∃ refusal, e = .system refusal) ∧ p.Refused view w w') := by
  refine ends_access hlink ?_
  rw [Act.ends_bind, Act.ends_look]
  split
  · next content hread =>
    exact ⟨Disk.read_eq_ok_iff.mp hread, .enter rfl rfl (hlink.gate _ _) rfl rfl rfl⟩
  · exact ⟨⟨_, rfl⟩, .enter rfl rfl (hlink.gate _ _) rfl rfl rfl rfl⟩

theorem ends_discardFile (hp : p.Separate) (hlink : link.Steady view) (s : Slot) (w : World σ) :
    (link.discardFile (p.path s)).Ends w
      (fun _ w' => p.contents w.disk s ≠ some .directory ∧
        p.Done view (Function.update (p.contents w.disk) s none) w w')
      (fun e w' => (∃ refusal, e = .system refusal) ∧ p.Refused view w w') := by
  refine ends_access hlink ?_
  rw [Act.ends_bind, Act.ends_look]
  split
  · next disk hremove =>
    obtain ⟨⟨content, hfile⟩, hupdate⟩ := hp.contents_of_remove hremove
    exact ⟨by simp [hfile], .enter rfl rfl (hlink.gate _ _) rfl rfl hupdate⟩
  · next code hremove =>
    split
    · next hcode =>
      -- nothing was there: removing nothing changes nothing
      obtain rfl := eq_of_beq hcode
      have hnone : p.contents w.disk s = none := Disk.found_of_remove_notFound hremove
      refine ⟨by simp [hnone], .enter rfl rfl (hlink.gate _ _) rfl rfl ?_⟩
      rw [← hnone, Function.update_eq_self]
    · exact ⟨⟨_, rfl⟩, .enter rfl rfl (hlink.gate _ _) rfl rfl rfl rfl⟩

/-- Removing a file aside of the four, or failing to, leaves them alone. -/
theorem ends_discardFile_aside {q : Path} (hq : p.Aside q) (hlink : link.Steady view)
    (w : World σ) :
    (link.discardFile q).Ends w
      (fun _ w' => p.Done view (p.contents w.disk) w w')
      (fun e w' => (∃ refusal, e = .system refusal) ∧ p.Refused view w w') := by
  refine ends_access hlink ?_
  rw [Act.ends_bind, Act.ends_look]
  split
  · next disk hremove =>
    exact .enter rfl rfl (hlink.gate _ _) rfl rfl (hq.contents_of_remove hremove)
  · split
    · exact .enter rfl rfl (hlink.gate _ _) rfl rfl rfl
    · exact ⟨⟨_, rfl⟩, .enter rfl rfl (hlink.gate _ _) rfl rfl rfl rfl⟩

theorem ends_moveFile (hp : p.Separate) {q : Path} (hq : p.Aside q) (hlink : link.Steady view)
    {content : Bytes} (hcontent : w.disk.found q = some (.file content)) (s : Slot) :
    (link.moveFile q (p.path s)).Ends w
      (fun _ w' => p.contents w.disk s ≠ some .directory ∧
        p.Done view (Function.update (p.contents w.disk) s (some (.file content))) w w')
      (fun e w' => (∃ refusal, e = .system refusal) ∧ p.Refused view w w') := by
  refine ends_access hlink ?_
  rw [Act.ends_bind, Act.ends_look]
  cases hmove : w.disk.move q (p.path s) with
  | error code => exact ⟨⟨_, rfl⟩, .enter rfl rfl (hlink.gate _ _) rfl rfl rfl rfl⟩
  | ok disk =>
    obtain ⟨moved, hmoved, hdir, hupdate⟩ := hp.contents_of_move hq hmove
    obtain rfl : content = moved := by simpa [hcontent] using hmoved
    exact ⟨hdir, .enter rfl rfl (hlink.gate _ _) rfl rfl hupdate⟩

theorem ends_makeFile {q : Path} (hq : p.Aside q) (view : σ → β) (content : Bytes)
    (w : World σ) :
    (Link.makeFile q content).Ends w
      (fun _ w' => w'.disk.found q = some (.file content) ∧
        p.Done view (p.contents w.disk) w w')
      (fun e w' => (∃ refusal, e = .system refusal) ∧ p.Refused view w w') := by
  rw [Link.makeFile, Act.ends_noted, Act.ends_bind, Act.ends_look]
  cases hfill : w.disk.fill q content with
  | error code => exact ⟨⟨_, rfl⟩, .enter rfl rfl rfl rfl rfl rfl rfl⟩
  | ok disk =>
    exact ⟨(Disk.found_of_fill hfill).2.1,
      .enter rfl rfl rfl rfl rfl (hq.contents_of_fill hfill)⟩

theorem ends_ensureDirectory {q : Path} (hq : w.disk.isDirectory q = true) (p : FilePaths)
    (view : σ → β) {E : Fault → World σ → Prop} :
    (Link.ensureDirectory q).Ends w (fun _ w' => p.Done view (p.contents w.disk) w w') E := by
  rw [Link.ensureDirectory, Act.ends_noted, Act.ends_bind, Act.ends_look,
    Disk.makeDirectories_of_isDirectory hq]
  exact .enter rfl rfl rfl rfl rfl rfl

/-- Writing one of the four files, in a directory that is there, gives it the new
content or leaves it as it was. -/
theorem ends_writeAtomically (hp : p.Separate) (hlink : link.Steady view) {t : Slot} {n : Node}
    (hdir : p.contents w.disk t = some n) (s : Slot) (content : Bytes) :
    (writeAtomically link (p.path s) content p.all).Ends w
      (fun _ w' => p.contents w.disk s ≠ some .directory ∧
        p.Done view (Function.update (p.contents w.disk) s (some (.file content))) w w')
      (fun e w' => (∃ refusal, e = .system refusal) ∧ p.Refused view w w') := by
  rw [writeAtomically]
  refine (ends_ensureDirectory (hp.isDirectory_parent hdir s) p view).bind
    (fun _ w₁ h₁ => ?_) fun _ _ he => he
  rw [Act.ends_bind, Act.ends_look]
  -- the temporary file stands aside of the four, wherever the disk puts it
  have haside := hp.aside_temporaryFor w₁.disk s
  generalize temporaryFor w₁.disk (p.path s) p.all = temporary at haside ⊢
  refine (ends_makeFile haside view content w₁).bind (fun _ w₂ h₂ => ?_)
    fun e w' he => ⟨he.1, he.2.after h₁⟩
  obtain ⟨hfound, h₂⟩ := h₂
  have h₁₂ : p.Done view (p.contents w.disk) w w₂ := by
    have := h₁.after h₂
    rwa [h₁.contents] at this
  rw [Act.ends_bind, Act.ends_outcome]
  have hmove := ends_moveFile hp haside hlink hfound s
  rw [h₁₂.contents] at hmove
  refine hmove.mono (fun _ w₃ h₃ => ⟨h₃.1, ?_⟩) fun e w₃ h₃ => ?_
  · exact h₁₂.after h₃.2
  · obtain ⟨hsystem, h₃⟩ := h₃
    -- the temporary file goes, or is refused to go: the files stay as they were
    refine (ends_discardFile_aside haside hlink w₃).bind (fun _ w₄ h₄ => ?_) fun e' w₄ h₄ => ?_
    · exact ⟨hsystem, (h₃.after h₁₂).before h₄⟩
    · exact ⟨h₄.1, (h₃.after h₁₂).before h₄.2.toDone⟩

end

end HotSwap
