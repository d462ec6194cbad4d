import Mathlib.Logic.Relation
import Playout.Proofs.Encoder.SegmentName
import Playout.Proofs.Representation.Tiling
import Playout.Proofs.Run.Available
import Playout.Run.Basic

/-!
The work of an encoder on a run. It begins its numbered files one after another,
writes to none but the last, and may end at any moment. The directory is read one
entry at a time while all this goes on; whether the run has exited is looked at
before. What may be served of such a reading is final, unless the run was noted as
exited while its encoder is at work (`IsMistaken`). A teardown notes it so when it
could not stop the encoder, and so does a launch that is refused.
-/
namespace Playout

/-- A run with the process of its encoder. -/
structure Work where
  run : Run
  isStarted : Bool := false
  /-- How the process ended, if it did. -/
  exit : Option Encoder.Exit := none
  /-- How many of its numbered files the encoder has begun. -/
  begun : Nat := 0
  /-- Whether a launch for the run was refused. -/
  isRefused : Bool := false

namespace Work

/-- A run that was made for a job, with nothing in its directory. -/
def start (job : Encoder.Job) : Work := { run := { job := job } }

/-- The names of the files in the directory of the run. -/
def files (x : Work) : List String := (x.run.output.getD []).map (·.name)

/-- Whether the run shows that it has exited. -/
def hasExited (x : Work) : Bool := x.run.shown x.exit == .exited

/-- Whether the encoder is at work. -/
def IsWriting (x : Work) : Prop := x.isStarted = true ∧ x.exit = none

/-- Whether the run is noted as exited while its encoder is at work. -/
def IsMistaken (x : Work) : Prop := x.run.stage = .exited ∧ x.IsWriting

/-- The name of a numbered file of the encoder. -/
def name (x : Work) (n : Nat) : String := Encoder.segmentName n x.run.job.rendering.kind

/-- The work when the next numbered file is begun. -/
def begin (x : Work) (content : List UInt8) : Work :=
  { x with run := x.run.write (x.name x.begun) content, begun := x.begun + 1 }

/-- Whether a name is not that of a numbered file. -/
def IsOther (x : Work) (name : String) : Prop :=
  Encoder.segmentNumber? (Encoder.extension x.run.job.rendering.kind).toList name.toList = none

/-- A step of the encoder, of its process or of what looks after the run, with the file that is written to. The end
    of a process is noted when it has ended. A teardown notes it whether it could stop the process or not, and so does
    a launch that is refused. Files that are not numbered may be written at any time, and a directory is removed once
    its run is destroyed. -/
inductive Step : Work → Option String → Work → Prop
  | starts {x : Work} (new : x.run.stage = .new) (first : x.isStarted = false) :
      Step x none { x with run := { x.run with stage := .running }, isStarted := true }
  | refuses {x : Work} : Step x none { x with run := { x.run with stage := .exited }, isRefused := true }
  | begins {x : Work} (content : List UInt8) (writing : x.IsWriting) :
      Step x (some (x.name x.begun)) (x.begin content)
  | writes {x : Work} (n : Nat) (content : List UInt8) (writing : x.IsWriting) (last : n + 1 = x.begun) :
      Step x (some (x.name n)) { x with run := x.run.write (x.name n) content }
  | others {x : Work} (name : String) (content : List UInt8) (other : x.IsOther name) :
      Step x (some name) { x with run := x.run.write name content }
  | exits {x : Work} (how : Encoder.Exit) (writing : x.IsWriting) : Step x none { x with exit := some how }
  | notes {x : Work} (ended : x.exit.isSome = true) :
      Step x none { x with run := { x.run with stage := .exited } }
  | pauses {x : Work} (running : x.run.stage = .running) :
      Step x none { x with run := { x.run with stage := .throttled } }
  | resumes {x : Work} (throttled : x.run.stage = .throttled) :
      Step x none { x with run := { x.run with stage := .running } }
  | reports {x : Work} (report : Encoder.Report) :
      Step x none { x with run := { x.run with progress := some report } }
  | destroys {x : Work} : Step x none { x with run := x.run.destroy }
  | tearsDown {x : Work} (destroyed : x.run.isDestroyed = true) :
      Step x none { x with run := { x.run with stage := .exited } }
  | clears {x : Work} (destroyed : x.run.isDestroyed = true) : Step x none { x with run := x.run.removeOutput }

/-- Any number of steps. -/
def Steps : Work → Work → Prop := Relation.ReflTransGen fun x y => ∃ file, Step x file y

/-- The reading of the directory, one entry at a time, while the work goes on. -/
inductive Scan : Work → List String → Work → Prop
  | done {x : Work} : Scan x [] x
  | works {x y z : Work} {file : Option String} {names : List String} (step : Step x file y)
      (rest : Scan y names z) : Scan x names z
  | reads {x z : Work} {name : String} {names : List String} (there : name ∈ x.files) (rest : Scan x names z) :
      Scan x (name :: names) z

/-- A call for the available segments: whether the run has exited is looked at first, then the directory is read. Unless
    the run is destroyed meanwhile, every file that was there when the reading began is read. -/
structure Call (x : Work) (names : List String) (z : Work) (a : Available) : Prop where
  reading : ∃ y, Steps x y ∧ Scan y names z ∧ (z.run.isDestroyed = false → y.files ⊆ names)
  found : a = .ofListing x.run.job x.hasExited names

/-! ### What steps keep -/

/-- A work in which the files were begun in order and are kept until the run is destroyed. -/
structure IsTidy (job : Encoder.Job) (x : Work) : Prop where
  job : x.run.job = job
  noted : x.run.stage = .exited → x.exit.isSome = true ∨ x.run.isDestroyed = true ∨ x.isRefused = true
  there : x.run.isDestroyed = false → x.run.output.isSome = true
  named : ∀ name ∈ x.files, (∃ n < x.begun, name = x.name n) ∨ x.IsOther name
  kept : x.run.isDestroyed = false → ∀ n < x.begun, x.name n ∈ x.files

/-- What a work has come to, it does not go back from. -/
structure Before (x y : Work) : Prop where
  job : y.run.job = x.run.job
  begun : x.begun ≤ y.begun
  ended : x.exit.isSome = true → y.exit.isSome = true
  noted : x.run.stage = .exited → y.run.stage = .exited
  unstarted : x.run.stage = .exited → x.isStarted = false → y.isStarted = false
  destroyed : x.run.isDestroyed = true → y.run.isDestroyed = true

variable {job : Encoder.Job} {x y z : Work} {file : Option String} {names : List String}

theorem isTidy_start (job : Encoder.Job) : IsTidy job (start job) where
  job := rfl
  noted exited := by cases exited
  there _ := rfl
  named _ member := by cases member
  kept _ n below := absurd below (Nat.not_lt_zero n)

/-- Files stay when another one is written. -/
theorem mem_files_write {name other : String} {content : List UInt8} (there : x.run.output.isSome = true) {begun : Nat} :
    other ∈ files { x with run := x.run.write name content, begun := begun } ↔ other = name ∨ other ∈ x.files := by
  obtain ⟨output,found⟩ := Option.isSome_iff_exists.mp there
  simp only [files,Run.write,found,Option.map_some,Option.getD_some,List.map_append,List.map_cons,List.map_nil,
    List.mem_append,List.mem_map,List.mem_filter,List.mem_singleton,decide_eq_true_eq]
  constructor
  · rintro (⟨f,⟨member,_⟩,rfl⟩ | rfl)
    · exact .inr ⟨f,member,rfl⟩
    · exact .inl rfl
  · rintro (rfl | ⟨f,member,rfl⟩)
    · exact .inr rfl
    · by_cases same : f.name = name
      · exact .inr same
      · exact .inl ⟨f,⟨member,same⟩,rfl⟩

theorem files_write_of_none {name : String} {content : List UInt8} (gone : x.run.output = none) {begun : Nat} :
    files { x with run := x.run.write name content, begun := begun } = [] := by
  simp [files,Run.write,gone]

theorem IsTidy.write (tidy : IsTidy job x) {name : String} (content : List UInt8) {begun : Nat}
    (more : x.begun ≤ begun) (known : (∃ n < begun, name = x.name n) ∨ x.IsOther name)
    (new : ∀ n < begun, n < x.begun ∨ x.name n = name) :
    IsTidy job { x with run := x.run.write name content, begun := begun } where
  job := tidy.job
  noted := tidy.noted
  there alive := by
    have there := tidy.there alive
    simpa [Run.write] using there
  named other member := by
    have old : other ∈ x.files → (∃ n < begun, other = x.name n) ∨ x.IsOther other := by
      intro before
      rcases tidy.named other before with ⟨n,below,same⟩ | is_other
      · exact .inl ⟨n,Nat.lt_of_lt_of_le below more,same⟩
      · exact .inr is_other
    cases gone : x.run.output with
    | none =>
      rw [files_write_of_none gone] at member
      cases member
    | some output =>
      rcases (mem_files_write (by rw [gone]; rfl)).mp member with rfl | before
      · exact known
      · exact old before
  kept alive n below := by
    refine (mem_files_write (tidy.there alive)).mpr ?_
    rcases new n below with before | same
    · exact .inr (tidy.kept alive n before)
    · exact .inl same

theorem IsTidy.step (tidy : IsTidy job x) (step : Step x file y) : IsTidy job y := by
  cases step with
  | begins content writing =>
    refine tidy.write content (Nat.le_succ _) (.inl ⟨x.begun,Nat.lt_succ_self _,rfl⟩) ?_
    intro n below
    rcases Nat.lt_succ_iff_lt_or_eq.mp below with before | rfl
    · exact .inl before
    · exact .inr rfl
  | writes n content writing last =>
    exact tidy.write content (Nat.le_refl _) (.inl ⟨n,by omega,rfl⟩) (fun _ below => .inl below)
  | others name content other =>
    exact tidy.write content (Nat.le_refl _) (.inr other) (fun _ below => .inl below)
  | exits how writing => exact { tidy with noted := fun _ => .inl rfl }
  | notes ended => exact { tidy with noted := fun _ => .inl ended }
  | refuses => exact { tidy with noted := fun _ => .inr (.inr rfl) }
  | starts new first => exact { tidy with noted := fun exited => by cases exited }
  | pauses running => exact { tidy with noted := fun exited => by cases exited }
  | resumes throttled => exact { tidy with noted := fun exited => by cases exited }
  | reports report => exact { tidy with }
  | destroys =>
    exact { tidy with
      noted := fun _ => .inr (.inl rfl)
      there := fun alive => nomatch alive
      kept := fun alive => nomatch alive }
  | tearsDown destroyed => exact { tidy with noted := fun _ => .inr (.inl destroyed) }
  | clears destroyed =>
    have gone : ∀ {p : Prop}, x.run.isDestroyed = false → p := by
      intro p alive
      rw [destroyed] at alive
      cases alive
    exact { tidy with
      there := fun alive => gone alive
      named := fun _ member => by cases member
      kept := fun alive => gone alive }

theorem Before.refl (x : Work) : Before x x := ⟨rfl,Nat.le_refl _,id,id,fun _ => id,id⟩

theorem Before.trans (one : Before x y) (other : Before y z) : Before x z where
  job := other.job.trans one.job
  begun := Nat.le_trans one.begun other.begun
  ended := other.ended ∘ one.ended
  noted := other.noted ∘ one.noted
  unstarted noted := other.unstarted (one.noted noted) ∘ one.unstarted noted
  destroyed := other.destroyed ∘ one.destroyed

theorem Step.before (step : Step x file y) : Before x y := by
  have refl := Before.refl x
  cases step with
  | begins content writing => exact { refl with begun := Nat.le_succ _ }
  | exits how writing => exact { refl with ended := fun _ => rfl }
  | starts new first => exact { refl with
      noted := fun noted => nomatch new.symm.trans noted
      unstarted := fun noted => nomatch new.symm.trans noted }
  | pauses running => exact { refl with noted := fun noted => nomatch running.symm.trans noted }
  | resumes throttled => exact { refl with noted := fun noted => nomatch throttled.symm.trans noted }
  | refuses | notes | tearsDown => exact { refl with noted := fun _ => rfl }
  | destroys => exact { refl with noted := fun noted => if_pos noted, destroyed := fun _ => rfl }
  | _ => exact { refl with }

theorem Steps.before (steps : Steps x y) : Before x y := by
  induction steps with
  | refl => exact .refl x
  | tail _ step ih =>
    obtain ⟨file,step⟩ := step
    exact ih.trans step.before

theorem IsTidy.steps (tidy : IsTidy job x) (steps : Steps x y) : IsTidy job y := by
  induction steps with
  | refl => exact tidy
  | tail _ step ih =>
    obtain ⟨file,step⟩ := step
    exact ih.step step

/-! ### Readings -/

theorem Scan.steps (scan : Scan x names z) : Steps x z := by
  induction scan with
  | done => exact .refl
  | works step _ ih => exact .head ⟨_,step⟩ ih
  | reads _ _ ih => exact ih

/-- What is read was there at a moment of the reading. -/
theorem Scan.there (scan : Scan x names z) {name : String} (read : name ∈ names) :
    ∃ y, Steps x y ∧ Steps y z ∧ name ∈ y.files := by
  induction scan with
  | done => cases read
  | works step rest ih =>
    obtain ⟨y,before,after,member⟩ := ih read
    exact ⟨y,.head ⟨_,step⟩ before,after,member⟩
  | reads here rest ih =>
    rcases List.mem_cons.mp read with rfl | later
    · exact ⟨_,.refl,rest.steps,here⟩
    · exact ih later

theorem Call.steps {a : Available} (call : Call x names z a) : Steps x z := by
  obtain ⟨y,waits,scan,_⟩ := call.reading
  exact waits.trans scan.steps

theorem Scan.of_subset (there : names ⊆ x.files) : Scan x names x := by
  induction names with
  | nil => exact .done
  | cons name names ih => exact .reads (there List.mem_cons_self) (ih (List.subset_of_cons_subset there))

/-- A directory that is read at once is read by a call. -/
theorem Call.of_available? {a : Available} (waits : Steps x y)
    (available : y.run.available? x.hasExited = some a) : Call x y.files y a where
  reading := ⟨y,waits,.of_subset (List.Subset.refl _),fun _ => List.Subset.refl _⟩
  found := by
    obtain ⟨files,there,eq⟩ := Option.map_eq_some_iff.mp available
    rw [← eq,Work.files,there,waits.before.job]
    rfl

/-- A numbered file that is read was begun by the end of the call. -/
theorem Call.begun {a : Available} (tidy : IsTidy job x) (call : Call x names z a) {name : String} {index : Nat}
    (read : name ∈ names) (number : job.segmentOf? name = some index) :
    ∃ n < z.begun, index = job.first + n ∧ name = Encoder.segmentName n job.rendering.kind := by
  obtain ⟨y,waits,scan,_⟩ := call.reading
  obtain ⟨v,before,after,member⟩ := scan.there read
  have tidy' : IsTidy job v := tidy.steps (waits.trans before)
  rcases tidy'.named name member with ⟨n,below,is_name⟩ | other
  · rw [Work.name,tidy'.job] at is_name
    rw [is_name,Available.segmentOf?_segmentName] at number
    exact ⟨n,Nat.lt_of_lt_of_le below (Steps.before after).begun,number.2.1,is_name⟩
  · obtain ⟨m,value,_⟩ := Available.segmentOf?_eq_some.mp number
    rw [IsOther,tidy'.job,value] at other
    cases other

/-! ### What is final -/

/-- A numbered file is written to by an encoder at work that has begun no later one. -/
theorem Step.writes_last {n : Nat} (small : n ≤ max32) (step : Step x (some (x.name n)) y) :
    x.IsWriting ∧ x.begun ≤ n + 1 := by
  generalize named : x.name n = name at step
  cases step with
  | begins content writing =>
    obtain rfl : n = x.begun := Encoder.segmentName_injective x.run.job.rendering.kind named
    exact ⟨writing,Nat.le_succ _⟩
  | writes m content writing last =>
    obtain rfl : n = m := Encoder.segmentName_injective x.run.job.rendering.kind named
    exact ⟨writing,Nat.le_of_eq last.symm⟩
  | others name content other =>
    rw [← named,IsOther,Work.name,Encoder.segmentNumber?_segmentName,if_pos small] at other
    cases other

theorem hasExited_iff : x.hasExited = true ↔ x.exit.isSome = true ∨ x.run.stage = .exited := by
  rw [Work.hasExited,Run.shown,beq_iff_eq]
  cases x.exit.isSome <;> simp

/-- A run that shows that it has exited goes on to do so. -/
theorem Before.hasExited (before : Before x y) (exited : x.hasExited = true) : y.hasExited = true :=
  hasExited_iff.mpr ((hasExited_iff.mp exited).imp before.ended before.noted)

/-- The encoder of such a run is not at work again, unless the run is noted so by mistake. -/
theorem Before.not_isWriting (before : Before x y) (exited : x.hasExited = true) (right : ¬ x.IsMistaken) :
    ¬ y.IsWriting := by
  rintro ⟨started,running⟩
  have unended : ¬ x.exit.isSome = true := by
    intro ended
    have ended' := before.ended ended
    rw [running] at ended'
    cases ended'
  have noted := (hasExited_iff.mp exited).resolve_left unended
  have unstarted : x.isStarted = false := by
    by_contra begun
    exact right ⟨noted,by simpa using begun,by simpa using unended⟩
  rw [before.unstarted noted unstarted] at started
  cases started

/-- Whether a listing has the file of a segment in the range of a job. -/
def Has (job : Encoder.Job) (names : List String) (index : Nat) : Prop :=
  ∃ n ≤ max32, Encoder.segmentName n job.rendering.kind ∈ names ∧ index = job.first + n ∧ index < job.last

/-- The segments that are listed by a call are those whose files were read. -/
theorem Call.lists_iff {a : Available} (tidy : IsTidy job x) (call : Call x names z a) {index : Nat} :
    Available.Lists job names index ↔ Has job names index := by
  constructor
  · rintro ⟨name,read,number⟩
    obtain ⟨n,_,_,is_name⟩ := call.begun tidy read number
    rw [is_name,Available.segmentOf?_segmentName] at number
    exact ⟨n,number.1,is_name ▸ read,number.2⟩
  · rintro ⟨n,small,read,inside⟩
    exact ⟨_,read,Available.segmentOf?_segmentName.mpr ⟨small,inside⟩⟩

/-- The segments of a call are those whose files were read, all of them when the run had exited before it and all but
    the greatest otherwise. -/
theorem Call.mem_iff {a : Available} (tidy : IsTidy job x) (call : Call x names z a) {index : Nat} :
    index ∈ a.segments.map (·.1) ↔
      Has job names index ∧ (x.hasExited = true ∨ ∃ greater, Has job names greater ∧ index < greater) := by
  rw [call.found,Available.mem_ofListing,tidy.job]
  simp only [call.lists_iff tidy]

/-- A segment is returned with the name of its file. -/
theorem Call.named {a : Available} (tidy : IsTidy job x) (call : Call x names z a) {index : Nat} {name : String}
    (served : (index,name) ∈ a.segments) : ∃ n ≤ max32, n < z.begun ∧ index = job.first + n ∧
      name = Encoder.segmentName n job.rendering.kind := by
  rw [call.found,tidy.job] at served
  obtain ⟨read,number⟩ := Available.mem_listed (Available.mem_listed_of_mem served)
  obtain ⟨n,begun,same,rfl⟩ := call.begun tidy read number
  exact ⟨n,(Available.segmentOf?_segmentName.mp number).1,begun,same,rfl⟩

/-- What one call read, a later one reads, unless the run was destroyed. -/
theorem Call.has_later {x' z' : Work} {names' : List String} {a a' : Available} (tidy : IsTidy job x)
    (call : Call x names z a) (later : Steps z x') (call' : Call x' names' z' a')
    (alive : z'.run.isDestroyed = false) {index : Nat} (has : Has job names index) : Has job names' index := by
  obtain ⟨n,small,read,inside⟩ := has
  refine ⟨n,small,?_,inside⟩
  have number := Available.segmentOf?_segmentName.mpr ⟨small,inside⟩
  obtain ⟨m,below,_,is_name⟩ := call.begun tidy read number
  obtain rfl : n = m := Encoder.segmentName_injective _ is_name
  obtain ⟨y,waits,scan,reads⟩ := call'.reading
  have before : Before z y := Steps.before (later.trans waits)
  have tidy' : IsTidy job y := tidy.steps (call.steps.trans (later.trans waits))
  have alive' : y.run.isDestroyed = false := by
    by_contra destroyed
    rw [scan.steps.before.destroyed (by simpa using destroyed)] at alive
    cases alive
  have there : y.name n ∈ y.files := tidy'.kept alive' n (Nat.lt_of_lt_of_le below before.begun)
  rw [name,tidy'.job] at there
  exact reads alive there

/-- The file of a segment that a call returns is not written to after the call, unless the run was noted as exited by
    mistake. -/
theorem Call.final {a : Available} (tidy : IsTidy job x) (call : Call x names z a) (right : ¬ x.IsMistaken)
    {index : Nat} {name : String} (served : (index,name) ∈ a.segments) {y u : Work} (later : Steps z y) :
    ¬ Step y (some name) u := by
  intro step
  obtain ⟨n,small,_,same,rfl⟩ := call.named tidy served
  have tidy' : IsTidy job y := tidy.steps (call.steps.trans later)
  obtain ⟨writing,last⟩ : y.IsWriting ∧ y.begun ≤ n + 1 :=
    Step.writes_last small (by rwa [Work.name,tidy'.job])
  rcases ((call.mem_iff tidy).mp (List.mem_map_of_mem served)).2 with exited | ⟨greater,has,below⟩
  · exact (Steps.before (call.steps.trans later)).not_isWriting exited right writing
  -- A greater segment was listed, so a later file was begun before the call came back.
  · obtain ⟨other,read,number⟩ := (call.lists_iff tidy).mpr has
    obtain ⟨m,begun,same',_⟩ := call.begun tidy read number
    have before := (Steps.before later).begun
    dsimp only at same below
    omega

/-- While a run is noted as exited by mistake, the file that is being written to is returned like any other. -/
theorem IsMistaken.serves_open (tidy : IsTidy job x) (mistaken : x.IsMistaken) {n : Nat} (last : n + 1 = x.begun)
    (has : Has job x.files (job.first + n)) :
    ∃ a, Call x x.files x a ∧ (job.first + n,x.name n) ∈ a.segments ∧ ∃ u, Step x (some (x.name n)) u := by
  have call : Call x x.files x _ :=
    ⟨⟨x,.refl,.of_subset (List.Subset.refl _),fun _ => List.Subset.refl _⟩,rfl⟩
  have exited : x.hasExited = true := hasExited_iff.mpr (.inr mistaken.1)
  obtain ⟨⟨index,name⟩,served,rfl⟩ := List.mem_map.mp ((call.mem_iff tidy).mpr ⟨has,.inl exited⟩)
  obtain ⟨m,_,_,same,rfl⟩ := call.named tidy served
  obtain rfl : n = m := Nat.add_left_cancel same
  have named : Encoder.segmentName n job.rendering.kind = x.name n := by rw [Work.name,tidy.job]
  exact ⟨_,call,named ▸ served,_,.writes n [] mistaken.2 last⟩

/-- What holds of the segments of a run. A segment is returned with the file of its number. Its file is never written to
    again, in whatever order the directory is read while the encoder goes on, unless the run was noted as exited while
    its encoder is at work; then the file that is being written to is returned, too. A run is noted so only when its
    teardown could not stop the encoder, or when a launch for it was refused. The segments are those whose files were
    read, without the greatest unless the run had exited before the call, and a segment that was returned once is
    returned by every later call until the run is destroyed. -/
theorem served_segments_final_unless_mistaken {job : Encoder.Job} {x : Work} (reached : Steps (start job) x) :
    (∀ names z a, Call x names z a →
      (∀ index name, (index,name) ∈ a.segments →
        (∃ n, index = job.first + n ∧ name = Encoder.segmentName n job.rendering.kind) ∧
          (¬ x.IsMistaken → ∀ y u, Steps z y → ¬ Step y (some name) u)) ∧
      (∀ index, index ∈ a.segments.map (·.1) ↔
        Has job names index ∧ (x.hasExited = true ∨ ∃ greater, Has job names greater ∧ index < greater)) ∧
      ∀ x' names' z' a', Steps z x' → Call x' names' z' a' → z'.run.isDestroyed = false →
        a.segments.map (·.1) ⊆ a'.segments.map (·.1)) ∧
    (x.IsMistaken → (x.run.isDestroyed = true ∨ x.isRefused = true) ∧
      ∀ n, n + 1 = x.begun → Has job x.files (job.first + n) →
        ∃ a, Call x x.files x a ∧ (job.first + n,x.name n) ∈ a.segments ∧ ∃ u, Step x (some (x.name n)) u) := by
  have tidy : IsTidy job x := (isTidy_start job).steps reached
  refine ⟨fun names z a call => ⟨?_,fun index => call.mem_iff tidy,?_⟩,?_⟩
  · intro index name served
    obtain ⟨n,_,_,same,is_name⟩ := call.named tidy served
    exact ⟨⟨n,same,is_name⟩,fun right y u later => call.final tidy right served later⟩
  · intro x' names' z' a' later call' alive index served
    have tidy' : IsTidy job x' := tidy.steps (call.steps.trans later)
    obtain ⟨has,final⟩ := (call.mem_iff tidy).mp served
    refine (call'.mem_iff tidy').mpr ⟨call.has_later tidy later call' alive has,?_⟩
    rcases final with exited | ⟨greater,has',below⟩
    · exact .inl ((Steps.before (call.steps.trans later)).hasExited exited)
    · exact .inr ⟨greater,call.has_later tidy later call' alive has',below⟩
  · intro mistaken
    refine ⟨(tidy.noted mistaken.1).resolve_left ?_,fun n last has => mistaken.serves_open tidy last has⟩
    rw [mistaken.2.2]
    nofun

/-- A job of two segments. -/
def twoSegments : Encoder.Job := ⟨default,"film.mkv",⟨film,.copied film,[0,5]⟩,7,9,"run",5.0,none⟩

/-- The work on it with one file begun. -/
def oneBegun : Work :=
  begin { run := { job := twoSegments, stage := .running }, isStarted := true } [0]

/-- The work on it with both files begun. -/
def bothBegun : Work := oneBegun.begin [0]

theorem steps_oneBegun : Steps (start twoSegments) oneBegun :=
  .tail (.tail .refl ⟨_,.starts rfl rfl⟩) ⟨_,.begins [0] ⟨rfl,rfl⟩⟩

theorem step_bothBegun : Step oneBegun (some (Encoder.segmentName 1 .video)) bothBegun := .begins [0] ⟨rfl,rfl⟩

theorem mem_files_bothBegun : Encoder.segmentName 1 .video ∈ bothBegun.files := (mem_files_write rfl).mpr (.inl rfl)

/-- The second file is begun after the first one was read. -/
theorem first_of_two_is_final : Steps (start twoSegments) oneBegun ∧ ¬ oneBegun.IsMistaken ∧
    ∃ a, Call oneBegun [Encoder.segmentName 0 .video,Encoder.segmentName 1 .video] bothBegun a ∧
      7 ∈ a.segments.map (·.1) ∧
      ∀ name, (7,name) ∈ a.segments → ∀ z u, Steps bothBegun z → ¬ Step z (some name) u := by
  have one : oneBegun.files = [Encoder.segmentName 0 .video] := rfl
  have scan : Scan oneBegun [Encoder.segmentName 0 .video,Encoder.segmentName 1 .video] bothBegun :=
    .reads (one ▸ List.mem_cons_self) (.works step_bothBegun (.reads mem_files_bothBegun .done))
  have call : Call oneBegun _ bothBegun _ :=
    ⟨⟨oneBegun,.refl,scan,fun _ => one ▸ List.cons_subset_cons _ (List.nil_subset _)⟩,rfl⟩
  have first : Has twoSegments [Encoder.segmentName 0 .video,Encoder.segmentName 1 .video] 7 :=
    ⟨0,Nat.zero_le _,List.mem_cons_self,rfl,by decide⟩
  have second : Has twoSegments [Encoder.segmentName 0 .video,Encoder.segmentName 1 .video] 8 :=
    ⟨1,by decide,List.mem_cons_of_mem _ List.mem_cons_self,rfl,by decide⟩
  have right : ¬ oneBegun.IsMistaken := fun mistaken => nomatch mistaken.1
  obtain ⟨final,served,_⟩ := (served_segments_final_unless_mistaken steps_oneBegun).1 _ _ _ call
  have returned := (served 7).mpr ⟨first,.inr ⟨8,second,by decide⟩⟩
  exact ⟨steps_oneBegun,right,_,call,returned,fun name there => (final 7 name there).2 right⟩

/-- A run for which a launch is refused while its encoder is at work, and a destroyed one whose teardown could not stop
    the encoder. Both are noted as exited, and the second segment is returned although its file is still written to. -/
theorem open_segment_is_returned :
    (∃ x a u, Steps (start twoSegments) x ∧ x.isRefused = true ∧ x.run.isDestroyed = false ∧ Call x x.files x a ∧
      (8,Encoder.segmentName 1 .video) ∈ a.segments ∧ Step x (some (Encoder.segmentName 1 .video)) u) ∧
    ∃ x a u, Steps (start twoSegments) x ∧ x.isRefused = false ∧ x.run.isDestroyed = true ∧ Call x x.files x a ∧
      (8,Encoder.segmentName 1 .video) ∈ a.segments ∧ Step x (some (Encoder.segmentName 1 .video)) u := by
  have both : Steps (start twoSegments) bothBegun := .tail steps_oneBegun ⟨_,step_bothBegun⟩
  have has : Has twoSegments bothBegun.files 8 := ⟨1,by decide,mem_files_bothBegun,rfl,by decide⟩
  constructor
  · have reached := both.tail ⟨_,.refuses⟩
    have tidy := (isTidy_start twoSegments).steps reached
    obtain ⟨a,call,served,u,written⟩ := IsMistaken.serves_open tidy ⟨rfl,rfl,rfl⟩ (n := 1) rfl has
    exact ⟨_,a,u,reached,rfl,rfl,call,served,written⟩
  · have reached := (both.tail ⟨_,.destroys⟩).tail ⟨_,.tearsDown rfl⟩
    have tidy := (isTidy_start twoSegments).steps reached
    obtain ⟨a,call,served,u,written⟩ := IsMistaken.serves_open tidy ⟨rfl,rfl,rfl⟩ (n := 1) rfl has
    exact ⟨_,a,u,reached,rfl,rfl,call,served,written⟩

end Work
end Playout
