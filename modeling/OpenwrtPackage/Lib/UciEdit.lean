/-
**Packages that are edited.**

The commands of `uci` that change a package: sections are made, deleted and given options.  A
section is addressed by its name, or as the last one of its type.

* `Uci.Edit`, `Uci.run` — the commands, and many of them;
* `Uci.Writes` — commands that put certain sections behind whatever is there, as long as the names
  are free, with `Uci.Writes.append`, `Uci.Writes.fresh`, `Uci.Writes.made` and
  `Uci.Writes.anonymous`;
* `Uci.nodup_run` — a package never gets two sections of one name;
* `Uci.Writes.run_iff` — **the sections are written exactly when their names are free**.
-/
import Mathlib.Data.List.Nodup
import OpenwrtPackage.Lib.Uci

set_option relaxedAutoImplicit false
set_option autoImplicit false

namespace Uci

/-! ### Commands -/

/-- How a section is addressed. -/
inductive Target where
  | named (name : Name)
  /-- `@type[-1]` -/
  | last (type : Name)

inductive Edit where
  /-- `delete package.name` -/
  | delete (name : Name)
  /-- `set package.name=type` -/
  | create (name type : Name)
  /-- `add package type` -/
  | add (type : Name)
  /-- `set package.target.option=value` -/
  | set (target : Target) (option : Name) (value : List Char)
  /-- `add_list package.target.option=value` -/
  | addList (target : Target) (option : Name) (value : List Char)

/-- The names of the sections. -/
def names (ss : List Section) : List Name := ss.filterMap Section.name

/-- An option gets a value. -/
def putOption (option : Name) (v : Value) : List Opt → List Opt
  | [] => [⟨option, v⟩]
  | o :: os => if o.name = option then ⟨option, v⟩ :: os else o :: putOption option v os

/-- An option is set; to nothing, it is deleted. -/
def Section.set (option : Name) (v : List Char) (s : Section) : Section :=
  { s with
    options := if v = [] then s.options.filter fun o => o.name ≠ option
      else putOption option (.str v) s.options }

/-- The last section of a type is changed. -/
def updateLast (type : Name) (f : Section → Section) : List Section → List Section
  | [] => []
  | s :: ss =>
      if s.type = type ∧ ∀ t ∈ ss, t.type ≠ type then f s :: ss else s :: updateLast type f ss

/-- A section is changed; a package has at most one of a name. -/
def update (f : Section → Section) (ss : List Section) : Target → List Section
  | .named name => ss.map fun s => if s.name = some name then f s else s
  | .last type => updateLast type f ss

def apply (ss : List Section) : Edit → List Section
  | .delete name => ss.filter fun s => s.name ≠ some name
  | .create name type =>
      if name ∈ names ss then update (fun s => { s with type := type }) ss (.named name)
      else ss ++ [⟨some name, type, []⟩]
  | .add type => ss ++ [⟨none, type, []⟩]
  | .set target option value => update (Section.set option value) ss target
  | .addList target option value => update (Section.addList option value) ss target

/-- `uci batch` -/
def run (es : List Edit) (ss : List Section) : List Section := es.foldl apply ss

theorem run_append (es fs : List Edit) (ss : List Section) :
    run (es ++ fs) ss = run fs (run es ss) :=
  List.foldl_append

/-! ### Names -/

theorem names_append (ss ts : List Section) : names (ss ++ ts) = names ss ++ names ts :=
  List.filterMap_append

theorem mem_names {name : Name} {ss : List Section} :
    name ∈ names ss ↔ ∃ s ∈ ss, s.name = some name :=
  List.mem_filterMap

theorem names_map {f : Section → Section} (hf : ∀ s, (f s).name = s.name) (ss : List Section) :
    names (ss.map f) = names ss := by
  rw [names, List.filterMap_map]
  exact List.filterMap_congr fun s _ => hf s

theorem names_updateLast {f : Section → Section} (hf : ∀ s, (f s).name = s.name) (type : Name)
    (ss : List Section) : names (updateLast type f ss) = names ss := by
  induction ss with
  | nil => rfl
  | cons s ss ih =>
      have hcons : ∀ (t : Section) (ts : List Section),
          names (t :: ts) = t.name.toList ++ names ts := by
        intro t ts
        rw [names, List.filterMap_cons]
        cases t.name with
        | none => rfl
        | some name => rfl
      rw [updateLast]
      split
      · rw [hcons, hcons, hf]
      · rw [hcons, hcons, ih]

/-- A section keeps its name when it is changed. -/
theorem names_update {f : Section → Section} (hf : ∀ s, (f s).name = s.name) (ss : List Section)
    (target : Target) : names (update f ss target) = names ss := by
  cases target with
  | named name =>
      refine names_map (fun s => ?_) ss
      split
      · exact hf s
      · rfl
  | last type => exact names_updateLast hf type ss

theorem nodup_apply {ss : List Section} (h : (names ss).Nodup) (e : Edit) :
    (names (apply ss e)).Nodup := by
  cases e with
  | delete name => exact h.sublist (List.filter_sublist.filterMap Section.name)
  | create name type =>
      rw [apply]
      split
      · rwa [@names_update (fun s => { s with type := type }) fun _ => rfl]
      · next hfree =>
          rw [names_append]
          refine List.nodup_append.2 ⟨h, List.nodup_singleton name, ?_⟩
          rintro n hn m hm rfl
          exact hfree (List.mem_singleton.1 hm ▸ hn)
  | add type =>
      have hsame : names (ss ++ [⟨none, type, []⟩]) = names ss := by
        rw [names_append]
        exact List.append_nil _
      rwa [apply, hsame]
  | set target option value => rwa [apply, @names_update (Section.set option value) fun _ => rfl]
  | addList target option value =>
      rwa [apply, @names_update (Section.addList option value) fun _ => rfl]

/-- **A package never gets two sections of one name.** -/
theorem nodup_run {ss : List Section} (h : (names ss).Nodup) (es : List Edit) :
    (names (run es ss)).Nodup := by
  induction es generalizing ss with
  | nil => exact h
  | cons e es ih => exact ih (nodup_apply h e)

/-! ### The section at the end -/

/-- The section behind the others is the one that is meant. -/
def Target.Hits (ss : List Section) (s : Section) : Target → Prop
  | .named name => name ∉ names ss ∧ s.name = some name
  | .last type => s.type = type

theorem updateLast_concat {type : Name} {s : Section} (hs : s.type = type)
    (f : Section → Section) (ss : List Section) :
    updateLast type f (ss ++ [s]) = ss ++ [f s] := by
  induction ss with
  | nil => exact if_pos ⟨hs, fun _ h => absurd h List.not_mem_nil⟩
  | cons t ss ih =>
      rw [List.cons_append, updateLast, if_neg, ih]
      · rfl
      · rintro ⟨-, hlast⟩
        exact hlast s (List.mem_append_right ss (List.mem_singleton_self s)) hs

theorem update_concat {ss : List Section} {s : Section} {target : Target}
    (h : target.Hits ss s) (f : Section → Section) :
    update f (ss ++ [s]) target = ss ++ [f s] := by
  cases target with
  | named name =>
      obtain ⟨hfree, hs⟩ := h
      have hothers : (ss.map fun t => if t.name = some name then f t else t) = ss := by
        refine (List.map_congr_left fun t ht => ?_).trans (List.map_id ss)
        exact if_neg fun hname => hfree (mem_names.2 ⟨t, ht, hname⟩)
      rw [update, List.map_append, hothers, List.map_singleton, if_pos hs]
  | last type => exact updateLast_concat h f ss

/-- A change of options. -/
inductive Change where
  | set (option : Name) (value : List Char)
  | addList (option : Name) (value : List Char)

def Change.on (target : Target) : Change → Edit
  | .set option value => .set target option value
  | .addList option value => .addList target option value

def Section.change (s : Section) : Change → Section
  | .set option value => s.set option value
  | .addList option value => s.addList option value

theorem hits_change {ss : List Section} {s : Section} {target : Target} (h : target.Hits ss s)
    (c : Change) : target.Hits ss (s.change c) := by
  cases target with
  | named name => cases c with
    | set option value => exact h
    | addList option value => exact h
  | last type => cases c with
    | set option value => exact h
    | addList option value => exact h

theorem apply_on {ss : List Section} {s : Section} {target : Target} (h : target.Hits ss s)
    (c : Change) : apply (ss ++ [s]) (c.on target) = ss ++ [s.change c] := by
  cases c with
  | set option value => exact update_concat h _
  | addList option value => exact update_concat h _

/-- The options of the section at the end are changed, and nothing else. -/
theorem run_on {ss : List Section} {s : Section} {target : Target} (h : target.Hits ss s)
    (cs : List Change) :
    run (cs.map (Change.on target)) (ss ++ [s]) = ss ++ [cs.foldl Section.change s] := by
  induction cs generalizing s with
  | nil => rfl
  | cons c cs ih =>
      have hstep : run ((c :: cs).map (Change.on target)) (ss ++ [s]) =
          run (cs.map (Change.on target)) (apply (ss ++ [s]) (c.on target)) := rfl
      rw [hstep, apply_on h]
      exact ih (hits_change h c)

/-! ### Writing sections -/

/-- The commands put the sections behind what is there, when the names are free. -/
def Writes (es : List Edit) (news : List Section) : Prop :=
  ∀ ss : List Section, (names (ss ++ news)).Nodup → run es ss = ss ++ news

theorem Writes.nil : Writes [] [] := fun ss _ => (List.append_nil ss).symm

theorem Writes.append {es fs : List Edit} {news others : List Section} (hnews : Writes es news)
    (hothers : Writes fs others) : Writes (es ++ fs) (news ++ others) := by
  intro ss h
  rw [← List.append_assoc] at h ⊢
  have hfront : (names (ss ++ news)).Nodup := by
    rw [names_append] at h
    exact (List.nodup_append.1 h).1
  rw [run_append, hnews ss hfront, hothers (ss ++ news) h]

theorem free_of_nodup {ss : List Section} {name type : Name} {options : List Opt}
    (h : (names (ss ++ [⟨some name, type, options⟩])).Nodup) : name ∉ names ss := by
  rw [names_append] at h
  intro hname
  exact (List.nodup_append.1 h).2.2 name hname name (List.mem_singleton_self name) rfl

theorem change_fields (cs : List Change) (s : Section) :
    (cs.foldl Section.change s).name = s.name ∧ (cs.foldl Section.change s).type = s.type := by
  induction cs generalizing s with
  | nil => exact ⟨rfl, rfl⟩
  | cons c cs ih =>
      rw [List.foldl_cons, (ih (s.change c)).1, (ih (s.change c)).2]
      cases c with
      | set option value => exact ⟨rfl, rfl⟩
      | addList option value => exact ⟨rfl, rfl⟩

/-- A section is made and given options. -/
theorem Writes.made {name type : Name} {cs : List Change} {s : Section}
    (hs : s = cs.foldl Section.change ⟨some name, type, []⟩) :
    Writes (.create name type :: cs.map (Change.on (.named name))) [s] := by
  intro ss h
  have hname : s.name = some name := hs ▸ (change_fields cs _).1
  have hfree : name ∉ names ss := by
    obtain ⟨_, _, _⟩ := s
    cases hname
    exact free_of_nodup h
  have hcreate : run (.create name type :: cs.map (Change.on (.named name))) ss =
      run (cs.map (Change.on (.named name))) (ss ++ [⟨some name, type, []⟩]) := by
    rw [run, List.foldl_cons, apply, if_neg hfree]
    rfl
  have hhits : (Target.named name).Hits ss ⟨some name, type, []⟩ := ⟨hfree, rfl⟩
  rw [hcreate, run_on hhits, ← hs]

/-- A section is deleted, made and given options. -/
theorem Writes.fresh {name type : Name} {cs : List Change} {s : Section}
    (hs : s = cs.foldl Section.change ⟨some name, type, []⟩) :
    Writes (.delete name :: .create name type :: cs.map (Change.on (.named name))) [s] := by
  intro ss h
  have hmade := Writes.made hs ss h
  have hname : s.name = some name := hs ▸ (change_fields cs _).1
  have hfree : name ∉ names ss := by
    obtain ⟨_, _, _⟩ := s
    cases hname
    exact free_of_nodup h
  have hdelete : apply ss (.delete name) = ss := by
    rw [apply, List.filter_eq_self]
    intro t ht
    exact decide_eq_true fun hname => hfree (mem_names.2 ⟨t, ht, hname⟩)
  calc run (.delete name :: .create name type :: cs.map (Change.on (.named name))) ss
      = run (.create name type :: cs.map (Change.on (.named name))) (apply ss (.delete name)) := rfl
    _ = ss ++ [s] := by rw [hdelete, hmade]

/-- A section without a name is added and given options. -/
theorem Writes.anonymous {type : Name} {cs : List Change} {s : Section}
    (hs : s = cs.foldl Section.change ⟨none, type, []⟩) :
    Writes (.add type :: cs.map (Change.on (.last type))) [s] := by
  intro ss _
  have hadd : run (.add type :: cs.map (Change.on (.last type))) ss =
      run (cs.map (Change.on (.last type))) (ss ++ [⟨none, type, []⟩]) := rfl
  have hhits : (Target.last type).Hits ss ⟨none, type, []⟩ := rfl
  rw [hadd, run_on hhits, ← hs]

/-- **The sections are written exactly when their names are free.** -/
theorem Writes.run_iff {es : List Edit} {news : List Section} (h : Writes es news)
    {ss : List Section} (hss : (names ss).Nodup) :
    run es ss = ss ++ news ↔ (names (ss ++ news)).Nodup := by
  constructor
  · intro hrun
    rw [← hrun]
    exact nodup_run hss es
  · exact h ss

/-! ### Options -/

/-- The options of values that are not empty. -/
def written (values : List (Name × List Char)) : List Opt :=
  (values.filter fun v => v.2 ≠ []).map fun v => ⟨v.1, .str v.2⟩

/-- `set` of each of the values. -/
def settings (values : List (Name × List Char)) : List Change :=
  values.map fun v => .set v.1 v.2

theorem putOption_concat {option : Name} {os : List Opt} (h : option ∉ os.map Opt.name)
    (v : Value) : putOption option v os = os ++ [⟨option, v⟩] := by
  induction os with
  | nil => rfl
  | cons o os ih =>
      rw [List.map_cons] at h
      obtain ⟨ho, hos⟩ := List.ne_and_not_mem_of_not_mem_cons h
      rw [putOption, if_neg (Ne.symm ho), ih hos]
      rfl

theorem name_of_mem_written {values : List (Name × List Char)} {option : Name}
    (h : option ∈ (written values).map Opt.name) : option ∈ values.map Prod.fst := by
  rw [written, List.map_map] at h
  obtain ⟨v, hv, rfl⟩ := List.mem_map.1 h
  exact List.mem_map.2 ⟨v, (List.mem_filter.1 hv).1, rfl⟩

theorem written_append (vs ws : List (Name × List Char)) :
    written (vs ++ ws) = written vs ++ written ws := by
  rw [written, List.filter_append, List.map_append]
  rfl

/-- A value that is not empty. -/
theorem written_one {option : Name} {v : List Char} (hv : v ≠ []) :
    written [(option, v)] = [⟨option, .str v⟩] := by
  rw [written, List.filter_cons_of_pos (by simpa using hv)]
  rfl

theorem set_concat {option : Name} {s : Section} (h : option ∉ s.options.map Opt.name)
    (v : List Char) :
    s.set option v = { s with options := s.options ++ written [(option, v)] } := by
  by_cases hv : v = []
  · have hself : (s.options.filter fun o => o.name ≠ option) = s.options := by
      rw [List.filter_eq_self]
      intro o ho
      exact decide_eq_true fun hname => h (List.mem_map.2 ⟨o, ho, hname⟩)
    have hnone : written [(option, v)] = [] := by
      rw [written, List.filter_cons_of_neg (by simpa using hv)]
      rfl
    rw [Section.set, if_pos hv, hself, hnone, List.append_nil]
  · rw [Section.set, if_neg hv, putOption_concat h, written_one hv]

/-- New options come behind the others, in the order in which they are set. -/
theorem settings_concat {values : List (Name × List Char)} (hvalues : (values.map Prod.fst).Nodup)
    {s : Section} (h : ∀ v ∈ values, v.1 ∉ s.options.map Opt.name) :
    (settings values).foldl Section.change s =
      { s with options := s.options ++ written values } := by
  induction values generalizing s with
  | nil => rw [written, List.filter_nil, List.map_nil, List.append_nil, settings]; rfl
  | cons v values ih =>
      obtain ⟨hv, hrest⟩ := List.forall_mem_cons.1 h
      rw [List.map_cons, List.nodup_cons] at hvalues
      have hcons : written (v :: values) = written [v] ++ written values :=
        written_append [v] values
      have hset : (settings (v :: values)).foldl Section.change s =
          (settings values).foldl Section.change (s.set v.1 v.2) := rfl
      rw [hset, set_concat hv, ih hvalues.2, hcons, List.append_assoc]
      intro w hw hmem
      rw [List.map_append, List.mem_append] at hmem
      rcases hmem with hmem | hmem
      · exact hrest w hw hmem
      · have heq : w.1 = v.1 := List.mem_singleton.1 (name_of_mem_written hmem)
        exact hvalues.1 (heq ▸ List.mem_map.2 ⟨w, hw, rfl⟩)

/-- The options of a new section. -/
theorem settings_new {values : List (Name × List Char)} (hvalues : (values.map Prod.fst).Nodup)
    (name : Option Name) (type : Name) :
    (settings values).foldl Section.change ⟨name, type, []⟩ =
      ⟨name, type, written values⟩ :=
  settings_concat hvalues fun _ _ => List.not_mem_nil

/-- The last option is set once more. -/
theorem set_last {option : Name} {os : List Opt} (h : option ∉ os.map Opt.name) {v : List Char}
    (hv : v ≠ []) (name : Option Name) (type : Name) (u : Value) :
    Section.set option v ⟨name, type, os ++ [⟨option, u⟩]⟩ =
      ⟨name, type, os ++ [⟨option, .str v⟩]⟩ := by
  have hput : putOption option (.str v) (os ++ [⟨option, u⟩]) = os ++ [⟨option, .str v⟩] := by
    induction os with
    | nil => exact if_pos rfl
    | cons o os ih =>
        rw [List.map_cons] at h
        obtain ⟨ho, hos⟩ := List.ne_and_not_mem_of_not_mem_cons h
        rw [List.cons_append, putOption, if_neg (Ne.symm ho), ih hos]
        rfl
  rw [Section.set, if_neg hv, hput]

/-- An option that is set once more keeps its place. -/
theorem settings_again {front back : List (Name × List Char)} {option : Name} {u v : List Char}
    (hnodup : ((front ++ (option, v) :: back).map Prod.fst).Nodup) (hu : u ≠ []) (hv : v ≠ [])
    (name : Option Name) (type : Name) :
    (settings (front ++ [(option, u)]) ++ settings ((option, v) :: back)).foldl Section.change
        ⟨name, type, []⟩ =
      ⟨name, type, written (front ++ (option, v) :: back)⟩ := by
  rw [List.map_append, List.map_cons, List.nodup_append, List.nodup_cons] at hnodup
  obtain ⟨hfront, ⟨hoption, hback⟩, hapart⟩ := hnodup
  have hfree : option ∉ (written front).map Opt.name := fun h =>
    hapart option (name_of_mem_written h) option List.mem_cons_self rfl
  have hfirst : (settings (front ++ [(option, u)])).foldl Section.change ⟨name, type, []⟩ =
      ⟨name, type, written front ++ [⟨option, .str u⟩]⟩ := by
    rw [settings_new, written_append, written_one hu]
    rw [List.map_append, List.nodup_append]
    refine ⟨hfront, List.nodup_singleton _, ?_⟩
    intro m hm n hn
    rw [List.mem_singleton.1 hn]
    exact hapart m hm option List.mem_cons_self
  have hcons : settings ((option, v) :: back) = .set option v :: settings back := rfl
  rw [List.foldl_append, hfirst, hcons, List.foldl_cons, Section.change, set_last hfree hv,
    settings_concat hback]
  · have hsplit : written ((option, v) :: back) = [⟨option, .str v⟩] ++ written back := by
      rw [← written_one hv]
      exact written_append [(option, v)] back
    rw [written_append, hsplit, ← List.append_assoc]
  · intro w hw hmem
    rw [List.map_append, List.mem_append] at hmem
    rcases hmem with hmem | hmem
    · exact hapart w.1 (name_of_mem_written hmem) w.1
        (List.mem_cons_of_mem _ (List.mem_map.2 ⟨w, hw, rfl⟩)) rfl
    · have heq : w.1 = option := List.mem_singleton.1 hmem
      exact hoption (heq ▸ List.mem_map.2 ⟨w, hw, rfl⟩)

theorem addTo_concat {option : Name} {os : List Opt} (h : option ∉ os.map Opt.name) (v : List Char)
    (us : List (List Char)) :
    addTo option v (os ++ [⟨option, .list us⟩]) = os ++ [⟨option, .list (us ++ [v])⟩] := by
  induction os with
  | nil => exact if_pos rfl
  | cons o os ih =>
      rw [List.map_cons] at h
      obtain ⟨ho, hos⟩ := List.ne_and_not_mem_of_not_mem_cons h
      rw [List.cons_append, addTo, if_neg (Ne.symm ho), ih hos]
      rfl

theorem addTo_new {option : Name} {os : List Opt} (h : option ∉ os.map Opt.name) (v : List Char) :
    addTo option v os = os ++ [⟨option, .list [v]⟩] := by
  induction os with
  | nil => rfl
  | cons o os ih =>
      rw [List.map_cons] at h
      obtain ⟨ho, hos⟩ := List.ne_and_not_mem_of_not_mem_cons h
      rw [addTo, if_neg (Ne.symm ho), ih hos]
      rfl

/-- Strings are added to an option that is not there yet. -/
theorem addLists_new {option : Name} {os : List Opt} (h : option ∉ os.map Opt.name)
    (v : List Char) (vs : List (List Char)) (name : Option Name) (type : Name) :
    ((v :: vs).map (Change.addList option)).foldl Section.change ⟨name, type, os⟩ =
      ⟨name, type, os ++ [⟨option, .list (v :: vs)⟩]⟩ := by
  have hmore : ∀ us : List (List Char),
      (vs.map (Change.addList option)).foldl Section.change
          ⟨name, type, os ++ [⟨option, .list us⟩]⟩ =
        ⟨name, type, os ++ [⟨option, .list (us ++ vs)⟩]⟩ := by
    induction vs with
    | nil => exact fun us => by rw [List.append_nil]; rfl
    | cons w vs ih =>
        intro us
        have hstep : Section.change ⟨name, type, os ++ [⟨option, .list us⟩]⟩
            (.addList option w) = ⟨name, type, os ++ [⟨option, .list (us ++ [w])⟩]⟩ := by
          rw [Section.change, Section.addList, addTo_concat h]
        rw [List.map_cons, List.foldl_cons, hstep, ih, List.append_assoc]
        rfl
  have hfirst : Section.change ⟨name, type, os⟩ (.addList option v) =
      ⟨name, type, os ++ [⟨option, .list [v]⟩]⟩ := by
    rw [Section.change, Section.addList, addTo_new h]
  rw [List.map_cons, List.foldl_cons, hfirst, hmore]
  rfl

end Uci
