import Mathlib.Data.List.Induction
import Mathlib.Data.List.Nodup
import Mathlib.Data.List.Perm.Basic
import Playout.Catalogue.Resolution
import Playout.Proofs.Representation.Tiling
import Playout.Proofs.Turn

/-!
A cache of renderings is transparent: whatever was asked of it before, a request is answered with what making the
rendering now would give. It is bounded too, and room is made by the one that was used least recently. What carries
both is that the entries have different keys and are what `make` gives of their keys and modification times (`Sound`).
-/
namespace Playout.RenderingCache

/-- How a rendering is made: from its key and the modification time of the file. -/
abbrev Maker := RenderingKey → Int → Result Rendering

/-! ### Calls -/

/-- The cache with what came of making a rendering, and the answer. -/
def settle (c : RenderingCache) (key : RenderingKey) (modified : Int) (now : Nat) :
    Result Rendering → RenderingCache × Result Rendering
  | .error e => (c,.error e)
  | .ok rendering => (c.insert now (some modified) key rendering,.ok rendering)

/-- A request for a rendering at a time `now`; one that has to be made is kept at a time `later`. -/
def get (c : RenderingCache) (make : Maker) (key : RenderingKey) (modified : Int) (now later : Nat) :
    RenderingCache × Result Rendering :=
  match c.lookup now (some modified) key with
  | (c,some rendering) => (c,.ok rendering)
  | (c,none) => c.settle key modified later (make key modified)

/-- What can be asked of a cache, with what the clock reads meanwhile; it may read anything. -/
inductive Call where
  | get (key : RenderingKey) (modified : Int) (now later : Nat)
  | dropStream (stream : StreamKey)
  | clear
  | dropExpired (now : Nat)

def Call.run (make : Maker) (c : RenderingCache) : Call → RenderingCache
  | get key modified now later => (c.get make key modified now later).1
  | dropStream stream => c.dropStream stream
  | clear => c.clear
  | dropExpired now => c.dropExpired now

/-- An empty cache that keeps unused renderings for `lifetime` nanoseconds. -/
def fresh (maxEntries lifetime : Nat) : RenderingCache := { empty maxEntries 0 with lifetime }

/-- A cache after some calls, one after the other. -/
def after (make : Maker) (maxEntries lifetime : Nat) (calls : List Call) : RenderingCache :=
  calls.foldl (Call.run make) (fresh maxEntries lifetime)

/-! ### Resolutions -/

/-- Whether a resolution has consulted the cache in vain and is about a file of a modification time. -/
def Makes (modified : Int) : Catalogue.Resolution → Prop
  | .scanning _ dated _ | .keeping dated _ => dated = modified
  | .inspecting _ | .dating _ | .consulting .. => False

section Resolution
open Catalogue
variable {segmentSeconds : Float} {clock : Clock} {clocks : Resolution → Clock} {stream : StreamKey}
  {id : RepresentationId} {facts : Stream} {modified : Int} {s t : State} {r : Result Rendering}

theorem scan_spares (path : List Char) (index : Nat) (phase : Scan) (s : State) :
    (phase.turn path index s).Leads (fun t _ => t.renderings = s.renderings)
      (fun t _ => t.renderings = s.renderings) := by
  cases phase with
  | stat =>
    simp only [Scan.turn]
    split <;> rfl
  | consulting modified =>
    simp only [Scan.turn]
    split <;> rfl
  | scanning modified =>
    simp only [Scan.turn]
    split <;> rfl
  | keeping modified frames => rfl

theorem made_leads (frames : List Int) : (Resolution.made segmentSeconds id facts modified frames s).Leads
    (fun t p => t = s ∧ Makes modified p) (fun t r => t = s ∧ ∃ e, r = .error e) := by
  rw [Resolution.made]
  split
  · exact ⟨rfl,_,rfl⟩
  · exact ⟨rfl,rfl⟩

/-- What is made is kept in the cache, and the cache is not touched before. -/
theorem making_leads {p : Resolution} (makes : Makes modified p) :
    (Resolution.turn segmentSeconds clock stream id p s).Leads
      (fun t p => t.renderings = s.renderings ∧ Makes modified p)
      (fun t r => ∃ outcome, (t.renderings,r) = s.renderings.settle (stream,id) modified clock.nanos outcome) := by
  cases p with
  | inspecting | dating | consulting => exact makes.elim
  | scanning facts dated phase =>
    obtain rfl := makes
    refine (scan_spares _ _ phase s).within (fun t p same => ⟨same,rfl⟩) fun t r same => ?_
    cases r with
    | error e => exact ⟨.error e,congrArg (·,Except.error e) same⟩
    | ok frames =>
      refine (made_leads frames).mono (fun u p both => ⟨both.1 ▸ same,both.2⟩) ?_
      rintro u r ⟨rfl,e,rfl⟩
      exact ⟨.error e,congrArg (·,Except.error e) same⟩
  | keeping dated rendering =>
    obtain rfl := makes
    exact ⟨.ok rendering,rfl⟩

/-- The cache is looked up first: what it has is the answer, and else the rendering is to be made. -/
theorem consulting_leads : (Resolution.turn segmentSeconds clock stream id (.consulting facts modified) s).Leads
    (fun t p => s.renderings.lookup clock.nanos (some modified) (stream,id) = (t.renderings,none) ∧ Makes modified p)
    (fun t r =>
      (∃ rendering, s.renderings.lookup clock.nanos (some modified) (stream,id) = (t.renderings,some rendering) ∧
        r = .ok rendering) ∨
      (s.renderings.lookup clock.nanos (some modified) (stream,id) = (t.renderings,none) ∧ ∃ e, r = .error e)) := by
  simp only [Resolution.turn]
  rcases s.renderings.lookup clock.nanos (some modified) (stream,id) with ⟨renderings,found⟩
  cases found with
  | some rendering => exact .inl ⟨rendering,rfl,rfl⟩
  | none =>
    by_cases needed : needsKeyframes facts id = true
    · simp only [needed,if_true]
      exact ⟨rfl,rfl⟩
    · simp only [if_neg needed]
      refine (made_leads []).mono ?_ ?_
      · rintro t p ⟨rfl,makes⟩
        exact ⟨rfl,makes⟩
      · rintro t r ⟨rfl,fails⟩
        exact .inr ⟨rfl,fails⟩

/-- A machine whose turns take some time, by the phase that it is in. -/
abbrev turns (segmentSeconds : Float) (clocks : Resolution → Clock) (stream : StreamKey) (id : RepresentationId)
    (p : Resolution) (s : State) : Turn State Resolution (Result Rendering) :=
  p.turn segmentSeconds (clocks p) stream id s

theorem settle_of_makes {p : Resolution} (alone : Turn.Alone (turns segmentSeconds clocks stream id) p s t r)
    (makes : Makes modified p) : ∃ outcome later,
      (t.renderings,r) = s.renderings.settle (stream,id) modified later outcome := by
  induction alone with
  | @ends p s t r turned =>
    have leads : (turns segmentSeconds clocks stream id p s).Leads _ _ := making_leads makes
    rw [turned] at leads
    obtain ⟨outcome,settled⟩ := leads
    exact ⟨outcome,_,settled⟩
  | @goesOn p s p' s' t r turned rest ih =>
    have leads : (turns segmentSeconds clocks stream id p s).Leads _ _ := making_leads makes
    rw [turned] at leads
    obtain ⟨same,makes⟩ := leads
    exact same ▸ ih makes

/-- A resolution that nobody disturbs once it comes to the cache is a request, where `outcome` is what it makes. -/
theorem get_of_alone (alone : Turn.Alone (turns segmentSeconds clocks stream id) (.consulting facts modified) s t r) :
    ∃ outcome later, (t.renderings,r) = s.renderings.get (fun _ _ => outcome) (stream,id) modified
      (clocks (.consulting facts modified)).nanos later := by
  have leads : (turns segmentSeconds clocks stream id (.consulting facts modified) s).Leads _ _ := consulting_leads
  cases alone with
  | ends turned =>
    rw [turned] at leads
    rcases leads with ⟨rendering,looked,rfl⟩ | ⟨looked,e,rfl⟩
    · exact ⟨.ok rendering,0,by rw [RenderingCache.get,looked]⟩
    · exact ⟨.error e,0,by rw [RenderingCache.get,looked]; rfl⟩
  | @goesOn _ _ p u _ _ turned rest =>
    rw [turned] at leads
    obtain ⟨looked,makes⟩ := leads
    obtain ⟨outcome,later,settled⟩ := settle_of_makes rest makes
    exact ⟨outcome,later,by rw [settled,RenderingCache.get,looked]⟩

end Resolution

/-! ### Entries -/

/-- The entries of other keys. -/
def others (c : RenderingCache) (key : RenderingKey) : List CachedRendering := c.entries.filter (·.key != key)

variable {c : RenderingCache} {make : Maker} {key : RenderingKey} {modified : Int} {now later : Nat}
  {es : List CachedRendering} {e : CachedRendering}

theorem mem_others : e ∈ c.others key ↔ e ∈ c.entries ∧ e.key ≠ key := by simp [others]

/-- The entry that was used least recently is one of the entries, and was used no later than any of them. -/
theorem oldest?_eq_some (found : oldest? es = some e) : e ∈ es ∧ ∀ f ∈ es, e.lastUse ≤ f.lastUse := by
  induction es generalizing e with
  | nil => cases found
  | cons first rest ih =>
    rw [oldest?] at found
    cases oldest : oldest? rest with
    | none =>
      have none : rest = [] := by
        cases rest with
        | nil => rfl
        | cons g rest =>
          rw [oldest?] at oldest
          split at oldest
          · split_ifs at oldest
          · cases oldest
      simp only [oldest,Option.some.injEq] at found
      simp [none,found]
    | some other =>
      obtain ⟨member,least⟩ := ih oldest
      simp only [oldest] at found
      split_ifs at found with earlier
      · obtain rfl := Option.some.inj found
        refine ⟨List.mem_cons_of_mem first member,fun f listed => ?_⟩
        rcases List.mem_cons.mp listed with rfl | later
        · omega
        · exact least f later
      · obtain rfl := Option.some.inj found
        refine ⟨List.mem_cons_self,fun f listed => ?_⟩
        rcases List.mem_cons.mp listed with rfl | later
        · omega
        · have := least f later
          omega

theorem oldest?_ne_none (some_entry : es ≠ []) : oldest? es ≠ none := by
  cases es with
  | nil => exact absurd rfl some_entry
  | cons first rest =>
    rw [oldest?]
    split
    · split_ifs <;> nofun
    · nofun

/-- Where keys differ, an entry is all that goes with its key. -/
theorem perm_filter_key (distinct : (es.map (·.key)).Nodup) (member : e ∈ es) :
    es.Perm (e :: es.filter (·.key != e.key)) := by
  obtain ⟨before,behind,rfl⟩ := List.append_of_mem member
  have apart : ∀ f ∈ before ++ behind, (f.key != e.key) = true := by
    intro f listed
    rw [List.map_append,List.map_cons] at distinct
    have fresh := (List.nodup_cons.mp (List.perm_middle.nodup_iff.mp distinct)).1
    rw [← List.map_append] at fresh
    exact bne_iff_ne.mpr fun same => fresh (same ▸ List.mem_map_of_mem listed)
  have kept : (before ++ e :: behind).filter (·.key != e.key) = before ++ behind := by
    rw [List.filter_append,List.filter_cons_of_neg (by simp),← List.filter_append,List.filter_eq_self.mpr apart]
  rw [kept]
  exact List.perm_middle

/-! ### What holds of a cache -/

/-- A cache of what is made by `make`. -/
structure Sound (make : Maker) (c : RenderingCache) : Prop where
  room : 0 < c.capacity
  bounded : c.entries.length ≤ c.capacity
  distinct : (c.entries.map (·.key)).Nodup
  made : ∀ e ∈ c.entries, ∃ modified, e.modified = some modified ∧ make e.key modified = .ok e.rendering

theorem Sound.fresh (make : Maker) (maxEntries lifetime : Nat) : Sound make (fresh maxEntries lifetime) where
  room := Nat.le_max_right maxEntries 1
  bounded := Nat.zero_le _
  distinct := List.nodup_nil
  made := fun _ listed => absurd listed List.not_mem_nil

theorem Sound.retain (sound : Sound make c) (keep : CachedRendering → Bool) : Sound make (c.retain keep) where
  room := sound.room
  bounded := Nat.le_trans (List.length_filter_le _ _) sound.bounded
  distinct := (List.filter_sublist.map _).nodup sound.distinct
  made := fun e listed => sound.made e (List.mem_filter.mp listed).1

theorem Sound.clear (sound : Sound make c) : Sound make c.clear where
  room := sound.room
  bounded := Nat.zero_le _
  distinct := List.nodup_nil
  made := fun _ listed => absurd listed List.not_mem_nil

/-- The entry of a key is the only one. -/
theorem Sound.unique (sound : Sound make c) {f : CachedRendering} (first : e ∈ c.entries) (second : f ∈ c.entries)
    (same : e.key = f.key) : e = f := List.inj_on_of_nodup_map sound.distinct first second same

/-- An entry that can be used is what would be made now. -/
theorem Sound.made_of_valid (sound : Sound make c) (member : e ∈ c.entries)
    (valid : c.isValid now (some modified) e = true) : make e.key modified = .ok e.rendering := by
  obtain ⟨known,dated,made⟩ := sound.made e member
  have current : known = modified := by
    simp only [isValid,dated,sameState,Bool.and_eq_true,beq_iff_eq] at valid
    exact valid.2
  exact current ▸ made

/-! ### Used entries -/

/-- The entries when the one of a key has just been used. -/
def touched (c : RenderingCache) (key : RenderingKey) (now : Nat) : List CachedRendering :=
  c.entries.map fun e => if e.key == key then { e with lastUse := now } else e

theorem key_touched (c : RenderingCache) (key : RenderingKey) (now : Nat) :
    (c.touched key now).map (·.key) = c.entries.map (·.key) := by
  rw [touched,List.map_map]
  refine List.map_congr_left fun e _ => ?_
  simp only [Function.comp_apply]
  split <;> rfl

theorem Sound.touch (sound : Sound make c) (key : RenderingKey) (now : Nat) :
    Sound make { c with entries := c.touched key now } where
  room := sound.room
  bounded := by simpa [touched] using sound.bounded
  distinct := (c.key_touched key now).symm ▸ sound.distinct
  made := by
    intro e listed
    obtain ⟨f,member,rfl⟩ := List.mem_map.mp listed
    have made := sound.made f member
    split <;> exact made

/-! ### Room for an entry -/

/-- What is kept of some entries when another one comes: all of them, or all but one that was used least recently. -/
structure MakesRoom (capacity : Nat) (es kept : List CachedRendering) : Prop where
  part : kept.Sublist es
  roomy : es.length < capacity → kept = es
  full : es.length = capacity → ∃ victim, es.Perm (victim :: kept) ∧ ∀ e ∈ es, victim.lastUse ≤ e.lastUse

theorem MakesRoom.length_lt {capacity : Nat} {kept : List CachedRendering} (room : MakesRoom capacity es kept)
    (bounded : es.length ≤ capacity) : kept.length < capacity := by
  by_cases full : es.length = capacity
  · obtain ⟨victim,split,_⟩ := room.full full
    have := split.length_eq
    simp at this
    omega
  · rw [room.roomy (by omega)]
    omega

/-- The cache with other entries. -/
def withEntries (c : RenderingCache) (entries : List CachedRendering) : RenderingCache := { c with entries }

theorem Sound.makeRoom (sound : Sound make c) :
    ∃ kept, c.makeRoom = c.withEntries kept ∧ MakesRoom c.capacity c.entries kept := by
  by_cases full : c.capacity ≤ c.entries.length
  · have some_entry : c.entries ≠ [] := by
      have := sound.room
      rintro none
      simp [none] at full
      omega
    obtain ⟨victim,oldest⟩ := Option.ne_none_iff_exists'.mp (oldest?_ne_none some_entry)
    obtain ⟨member,least⟩ := oldest?_eq_some oldest
    refine ⟨c.others victim.key,?_,List.filter_sublist,by omega,fun _ => ⟨victim,?_,least⟩⟩
    · simp only [RenderingCache.makeRoom,if_pos full,oldest]
      rfl
    · exact perm_filter_key sound.distinct member
  · refine ⟨c.entries,?_,List.Sublist.refl _,fun _ => rfl,by omega⟩
    simp only [RenderingCache.makeRoom,if_neg full]
    rfl

/-- An entry of a new key is put behind what is kept of the others. -/
theorem Sound.insert_eq (sound : Sound make c) (absent : ∀ e ∈ c.entries, e.key ≠ key) (rendering : Rendering)
    (modified : Int) (later : Nat) : ∃ kept, c.insert later (some modified) key rendering =
      c.withEntries (kept ++ [⟨key,rendering,later,some modified⟩]) ∧ MakesRoom c.capacity c.entries kept := by
  obtain ⟨kept,made,room⟩ := sound.makeRoom
  have apart : (c.withEntries kept).others key = kept :=
    List.filter_eq_self.mpr fun e listed => bne_iff_ne.mpr (absent e (room.part.subset listed))
  refine ⟨kept,?_,room⟩
  rw [insert,made]
  exact congrArg (fun es => c.withEntries (es ++ [⟨key,rendering,later,some modified⟩])) apart

theorem Sound.add {rendering : Rendering} {kept : List CachedRendering} (sound : Sound make c)
    (absent : ∀ e ∈ c.entries, e.key ≠ key) (made : make key modified = .ok rendering)
    (room : MakesRoom c.capacity c.entries kept) :
    Sound make (c.withEntries (kept ++ [⟨key,rendering,later,some modified⟩])) where
  room := sound.room
  bounded := by
    have := room.length_lt sound.bounded
    simp [withEntries]
    omega
  distinct := by
    have old := (room.part.map (·.key)).nodup sound.distinct
    have new : key ∉ kept.map (·.key) := by
      intro listed
      obtain ⟨e,member,same⟩ := List.mem_map.mp listed
      exact absent e (room.part.subset member) same
    simpa [withEntries,List.nodup_append] using ⟨old,by simpa using new⟩
  made := by
    intro e listed
    rcases List.mem_append.mp listed with old | new
    · exact sound.made e (room.part.subset old)
    · obtain rfl := List.mem_singleton.mp new
      exact ⟨modified,rfl,made⟩

/-! ### A request -/

/-- No entry of a key can be used. -/
def Lacks (c : RenderingCache) (key : RenderingKey) (modified : Int) (now : Nat) : Prop :=
  ∀ e ∈ c.entries, e.key = key → c.isValid now (some modified) e = false

/-- The ways of a request: an entry answers it, the rendering cannot be made, or it is made and kept. -/
inductive Request (make : Maker) (c : RenderingCache) (key : RenderingKey) (modified : Int) (now later : Nat) :
    RenderingCache × Result Rendering → Prop
  | used {e : CachedRendering} (member : e ∈ c.entries) (same : e.key = key)
      (valid : c.isValid now (some modified) e = true) :
      Request make c key modified now later (c.withEntries (c.touched key now),.ok e.rendering)
  | refused {error : Error} (lacks : c.Lacks key modified now) (fails : make key modified = .error error) :
      Request make c key modified now later (c.withEntries (c.others key),.error error)
  | added {rendering : Rendering} {kept : List CachedRendering} (lacks : c.Lacks key modified now)
      (made : make key modified = .ok rendering) (room : MakesRoom c.capacity (c.others key) kept) :
      Request make c key modified now later
        (c.withEntries (kept ++ [⟨key,rendering,later,some modified⟩]),.ok rendering)

theorem Sound.lookup_eq (sound : Sound make c) (key : RenderingKey) (modified : Int) (now : Nat) :
    (∃ e ∈ c.entries, e.key = key ∧ c.isValid now (some modified) e = true ∧
      c.lookup now (some modified) key = (c.withEntries (c.touched key now),some e.rendering)) ∨
    (c.Lacks key modified now ∧ c.lookup now (some modified) key = (c.withEntries (c.others key),none)) := by
  rw [lookup]
  cases found : c.entries.find? (·.key == key) with
  | none =>
    have absent : ∀ e ∈ c.entries, e.key ≠ key := by simpa using found
    have all : c.others key = c.entries := by simpa [others] using absent
    exact .inr ⟨fun e listed same => absurd same (absent e listed),by rw [all]; rfl⟩
  | some e =>
    have member := List.mem_of_find?_eq_some found
    have same : e.key = key := by simpa using List.find?_some found
    by_cases valid : c.isValid now (some modified) e = true
    · exact .inl ⟨e,member,same,valid,if_pos valid⟩
    · refine .inr ⟨fun f listed named => ?_,if_neg valid⟩
      rw [← sound.unique member listed (same.trans named.symm)]
      simpa using valid

theorem Sound.others (sound : Sound make c) (key : RenderingKey) : Sound make (c.withEntries (c.others key)) :=
  sound.retain (·.key != key)

theorem Sound.request (sound : Sound make c) (key : RenderingKey) (modified : Int) (now later : Nat) :
    Request make c key modified now later (c.get make key modified now later) := by
  rw [RenderingCache.get]
  rcases sound.lookup_eq key modified now with ⟨e,member,same,valid,looked⟩ | ⟨lacks,looked⟩
  · rw [looked]
    exact .used member same valid
  · rw [looked]
    cases outcome : make key modified with
    | error error => exact .refused lacks outcome
    | ok rendering =>
      obtain ⟨kept,inserted,room⟩ := (sound.others key).insert_eq
        (fun e listed => (mem_others.mp listed).2) rendering modified later
      simp only [settle,inserted]
      exact .added lacks outcome room

variable {result : RenderingCache × Result Rendering}

theorem Request.sound (request : Request make c key modified now later result) (sound : Sound make c) :
    Sound make result.1 := by
  cases request with
  | used => exact sound.touch key now
  | refused => exact sound.others key
  | added _ made room => exact (sound.others key).add (fun e listed => (mem_others.mp listed).2) made room

/-- What a request does to a cache, and what it gives. -/
structure Serves (make : Maker) (c : RenderingCache) (key : RenderingKey) (modified : Int) (now later : Nat)
    (result : RenderingCache × Result Rendering) : Prop where
  /-- The answer is what making the rendering now gives. -/
  transparent : result.2 = make key modified
  bounded : result.1.entries.length ≤ c.capacity
  present : ∀ rendering, result.2 = .ok rendering → ∃ e ∈ result.1.entries, e.key = key
  /-- A failure adds nothing, and takes away at most an entry of the key that could not be used any more. -/
  failed : ∀ error, result.2 = .error error → result.1.entries.Sublist c.entries ∧
    ∀ e ∈ c.entries, e ∉ result.1.entries → e.key = key ∧ c.isValid now (some modified) e = false
  /-- A rendering that had to be made comes to the entries of other keys, and if these fill the cache, one that was
      used least recently goes. -/
  added : ∀ rendering, result.2 = .ok rendering → c.Lacks key modified now → ∃ kept,
    result.1.entries = kept ++ [⟨key,rendering,later,some modified⟩] ∧ MakesRoom c.capacity (c.others key) kept

theorem Request.capacity (request : Request make c key modified now later result) :
    result.1.capacity = c.capacity := by
  cases request <;> rfl

theorem Request.serves (request : Request make c key modified now later result) (sound : Sound make c) :
    Serves make c key modified now later result where
  transparent := by
    cases request with
    | used member same valid => exact (same ▸ sound.made_of_valid member valid).symm
    | refused _ fails => exact fails.symm
    | added _ made _ => exact made.symm
  bounded := request.capacity ▸ (request.sound sound).bounded
  present := by
    intro rendering answered
    cases request with
    | @used e member same valid =>
      have listed : key ∈ (c.touched key now).map (·.key) :=
        c.key_touched key now ▸ same ▸ List.mem_map_of_mem member
      exact List.mem_map.mp listed
    | refused => cases answered
    | added => exact ⟨_,List.mem_append_right _ (List.mem_singleton_self _),rfl⟩
  failed := by
    intro error answered
    cases request with
    | used => cases answered
    | refused lacks _ =>
      refine ⟨List.filter_sublist,fun e listed lost => ?_⟩
      have same : e.key = key := by
        by_contra other
        exact lost (mem_others.mpr ⟨listed,other⟩)
      exact ⟨same,lacks e listed same⟩
    | added => cases answered
  added := by
    intro rendering answered lacks
    cases request with
    | used member same valid => exact absurd valid (by simp [lacks _ member same])
    | refused => cases answered
    | added _ _ room => exact ⟨_,by rw [← Except.ok.inj answered]; rfl,room⟩

/-! ### All requests -/

theorem Sound.run (sound : Sound make c) (call : Call) : Sound make (call.run make c) := by
  cases call with
  | get key modified now later => exact (sound.request key modified now later).sound sound
  | dropStream stream => exact sound.retain _
  | clear => exact sound.clear
  | dropExpired now => exact sound.retain _

theorem capacity_run (sound : Sound make c) (call : Call) : (call.run make c).capacity = c.capacity := by
  cases call with
  | get key modified now later => exact (sound.request key modified now later).capacity
  | dropStream | clear | dropExpired => rfl

theorem after_concat (make : Maker) (maxEntries lifetime : Nat) (calls : List Call) (call : Call) :
    after make maxEntries lifetime (calls ++ [call]) = call.run make (after make maxEntries lifetime calls) := by
  simp [after]

theorem sound_after (make : Maker) (maxEntries lifetime : Nat) (calls : List Call) :
    Sound make (after make maxEntries lifetime calls) ∧
      (after make maxEntries lifetime calls).capacity = max maxEntries 1 := by
  induction calls using List.reverseRecOn with
  | nil => exact ⟨.fresh make maxEntries lifetime,rfl⟩
  | append_singleton calls call ih =>
    obtain ⟨sound,capacity⟩ := ih
    rw [after_concat]
    exact ⟨sound.run call,(capacity_run sound call).trans capacity⟩

/-- Whatever was asked of a cache, it holds no more than it may, and a request is answered with what making the
    rendering now would give. -/
theorem requests_are_transparent (make : Maker) (maxEntries lifetime : Nat) (calls : List Call) :
    (after make maxEntries lifetime calls).entries.length ≤ max maxEntries 1 ∧
    (after make maxEntries lifetime calls).capacity = max maxEntries 1 ∧
    ∀ key modified now later, Serves make (after make maxEntries lifetime calls) key modified now later
      ((after make maxEntries lifetime calls).get make key modified now later) := by
  obtain ⟨sound,capacity⟩ := sound_after make maxEntries lifetime calls
  exact ⟨capacity ▸ sound.bounded,capacity,fun key modified now later =>
    (sound.request key modified now later).serves sound⟩

/-- Of two kept renderings the one that was not asked for again gives way to a third. -/
example :
    let key (index : Nat) : RenderingKey := (⟨default,index⟩,.direct)
    let make : Maker := fun _ _ => .ok ⟨film,.copied film,[0]⟩
    (after make 2 10 [.get (key 0) 5 0 0,.get (key 1) 5 1 1,.get (key 0) 5 2 2,.get (key 2) 5 3 3]).entries.map
      (·.key.1.index) = [0,2] := by decide +kernel

end Playout.RenderingCache
