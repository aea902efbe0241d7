/-
**Sections that are set again and again.**

A script that sets the type and the options of some sections can run more than once, with other
values.  What it sets it sets again, and the rest stays as it was.

* `Uci.Block`, `Uci.Block.edits` — a section that is set;
* `Uci.run_blocks` — sections that are missing are made, and then all of them are filled in;
* `Uci.Section.read` — what `uci get` gives of a section;
* `Uci.read_fillAll_kept`, `Uci.read_fillAll_forced` — what is not set stays, and what is set does
  not depend on what was there;
* `Uci.run_blocks_again` — **after two runs a package reads as after the second one alone**.
-/
import Mathlib.Data.List.Forall2
import OpenwrtPackage.Lib.UciEdit

set_option relaxedAutoImplicit false
set_option autoImplicit false

namespace Uci

/-! ### Blocks -/

/-- A section, and the values that its options get. -/
structure Block where
  name : Name
  type : Name
  values : List (Name × List Char)

/-- The commands that set it. -/
def Block.edits (b : Block) : List Edit :=
  .create b.name b.type :: (settings b.values).map (Change.on (.named b.name))

/-- What they do to a section. -/
def Block.fill (b : Block) (s : Section) : Section :=
  if s.name = some b.name then (settings b.values).foldl Section.change { s with type := b.type }
  else s

/-- The section is there. -/
def Block.ensure (b : Block) (ss : List Section) : List Section :=
  if b.name ∈ names ss then ss else ss ++ [⟨some b.name, b.type, []⟩]

def fillAll (bs : List Block) (s : Section) : Section := bs.foldl (fun s b => b.fill s) s

def ensureAll (bs : List Block) (ss : List Section) : List Section :=
  bs.foldl (fun ss b => b.ensure ss) ss

theorem name_fill (b : Block) (s : Section) : (b.fill s).name = s.name := by
  rw [Block.fill]
  split
  · exact (change_fields _ _).1
  · rfl

theorem name_fillAll (bs : List Block) (s : Section) : (fillAll bs s).name = s.name := by
  induction bs generalizing s with
  | nil => rfl
  | cons b bs ih => exact (ih (b.fill s)).trans (name_fill b s)

theorem run_named (name : Name) (cs : List Change) (ss : List Section) :
    run (cs.map (Change.on (.named name))) ss =
      ss.map fun s => if s.name = some name then cs.foldl Section.change s else s := by
  induction cs generalizing ss with
  | nil =>
      have hid : ∀ s : Section, (if s.name = some name then s else s) = s := fun s => ite_self s
      simp only [List.map_nil, List.foldl_nil, hid, List.map_id']
      rfl
  | cons c cs ih =>
      have hstep : run ((c :: cs).map (Change.on (.named name))) ss =
          run (cs.map (Change.on (.named name)))
            (ss.map fun s => if s.name = some name then s.change c else s) := by
        cases c with
        | set option value => rfl
        | addList option value => rfl
      rw [hstep, ih, List.map_map]
      refine List.map_congr_left fun s _ => ?_
      by_cases hs : s.name = some name
      · have hname : (s.change c).name = some name := by
          cases c with
          | set option value => exact hs
          | addList option value => exact hs
        simp only [Function.comp, if_pos hs, if_pos hname, List.foldl_cons]
      · simp only [Function.comp, if_neg hs]

/-- The section is made when it is missing, and then it is filled in. -/
theorem run_edits (b : Block) (ss : List Section) :
    run b.edits ss = (b.ensure ss).map b.fill := by
  have hcreate : apply ss (.create b.name b.type) =
      (b.ensure ss).map fun s => if s.name = some b.name then { s with type := b.type } else s := by
    rw [apply, Block.ensure]
    split
    · rfl
    · next hfree =>
        have hothers : (ss.map fun s =>
            if s.name = some b.name then { s with type := b.type } else s) = ss := by
          refine (List.map_congr_left fun s hs => ?_).trans (List.map_id ss)
          exact if_neg fun hname => hfree (mem_names.2 ⟨s, hs, hname⟩)
        rw [List.map_append, hothers, List.map_singleton, if_pos rfl]
  have hrun : run b.edits ss = run ((settings b.values).map (Change.on (.named b.name)))
      (apply ss (.create b.name b.type)) := rfl
  rw [hrun, hcreate, run_named, List.map_map]
  refine List.map_congr_left fun s _ => ?_
  by_cases hs : s.name = some b.name
  · simp only [Function.comp, Block.fill, if_pos hs]
  · simp only [Function.comp, Block.fill, if_neg hs]

/-! ### The sections that are there -/

theorem mem_names_ensure (b : Block) (ss : List Section) : b.name ∈ names (b.ensure ss) := by
  rw [Block.ensure]
  split
  · assumption
  · rw [names_append]
    exact List.mem_append_right _ (List.mem_singleton_self b.name)

theorem names_subset_ensure (b : Block) (ss : List Section) : names ss ⊆ names (b.ensure ss) := by
  rw [Block.ensure]
  split
  · exact List.Subset.refl _
  · rw [names_append]
    exact List.subset_append_left _ _

/-- All the sections are there. -/
theorem mem_names_ensureAll {bs : List Block} {name : Name} (ss : List Section)
    (h : name ∈ names ss ∨ name ∈ bs.map Block.name) : name ∈ names (ensureAll bs ss) := by
  induction bs generalizing ss with
  | nil => exact h.resolve_right List.not_mem_nil
  | cons b bs ih =>
      refine ih (b.ensure ss) ?_
      rcases h with h | h
      · exact Or.inl (names_subset_ensure b ss h)
      · rcases List.mem_cons.1 h with rfl | h
        · exact Or.inl (mem_names_ensure b ss)
        · exact Or.inr h

/-- Nothing is made when nothing is missing. -/
theorem ensureAll_of_mem {bs : List Block} {ss : List Section}
    (h : ∀ name ∈ bs.map Block.name, name ∈ names ss) : ensureAll bs ss = ss := by
  induction bs with
  | nil => rfl
  | cons b bs ih =>
      rw [List.map_cons] at h
      obtain ⟨hb, hbs⟩ := List.forall_mem_cons.1 h
      have hensure : b.ensure ss = ss := if_pos hb
      calc ensureAll (b :: bs) ss = ensureAll bs (b.ensure ss) := rfl
        _ = ss := by rw [hensure, ih hbs]

/-- What is filled in does not make other sections missing. -/
theorem ensureAll_map {b : Block} {ss : List Section} (h : b.name ∈ names ss) (bs : List Block) :
    ensureAll bs (ss.map b.fill) = (ensureAll bs ss).map b.fill := by
  induction bs generalizing ss with
  | nil => rfl
  | cons d bs ih =>
      have hensure : d.ensure (ss.map b.fill) = (d.ensure ss).map b.fill := by
        rw [Block.ensure, Block.ensure, names_map (name_fill b)]
        split
        · rfl
        · next hfree =>
            have hne : ¬ some d.name = some b.name := fun heq =>
              hfree (Option.some.inj heq ▸ h)
            rw [List.map_append, List.map_singleton, Block.fill, if_neg hne]
      calc ensureAll (d :: bs) (ss.map b.fill) = ensureAll bs (d.ensure (ss.map b.fill)) := rfl
        _ = (ensureAll bs (d.ensure ss)).map b.fill := by
          rw [hensure, ih (names_subset_ensure d ss h)]

/-- **Sections that are missing are made, and then all of them are filled in.** -/
theorem run_blocks (bs : List Block) (ss : List Section) :
    run (bs.flatMap Block.edits) ss = (ensureAll bs ss).map (fillAll bs) := by
  induction bs generalizing ss with
  | nil => exact (List.map_id ss).symm
  | cons b bs ih =>
      rw [List.flatMap_cons, run_append, run_edits, ih, ensureAll_map (mem_names_ensure b ss),
        List.map_map]
      rfl

/-! ### Reading -/

/-- What `uci get` gives of a section: its type, or the value of an option. -/
def Section.read (s : Section) : Option Name → Option Value
  | none => some (.str s.type.text)
  | some option => s.get option

/-- The sections read the same. -/
structure Section.Same (s t : Section) : Prop where
  name : s.name = t.name
  read : ∀ field, s.read field = t.read field

/-- What a block sets. -/
def Block.fields (b : Block) : List (Option Name) := none :: b.values.map fun v => some v.1

theorem find_putOption (option name : Name) (v : Value) (os : List Opt) :
    (putOption name v os).find? (fun o => o.name = option) =
      if name = option then some ⟨name, v⟩ else os.find? fun o => o.name = option := by
  induction os with
  | nil =>
      by_cases h : name = option
      · rw [putOption, List.find?_cons_of_pos (by simpa using h), if_pos h]
      · rw [putOption, List.find?_cons_of_neg (by simpa using h), if_neg h]
  | cons o os ih =>
      rw [putOption]
      by_cases ho : o.name = name
      · rw [if_pos ho]
        by_cases h : name = option
        · rw [List.find?_cons_of_pos (by simpa using h), if_pos h]
        · rw [List.find?_cons_of_neg (by simpa using h), if_neg h,
            List.find?_cons_of_neg (by simpa using ho ▸ h)]
      · rw [if_neg ho]
        by_cases h : o.name = option
        · have hne : name ≠ option := fun heq => ho (h.trans heq.symm)
          rw [List.find?_cons_of_pos (by simpa using h), if_neg hne,
            List.find?_cons_of_pos (by simpa using h)]
        · rw [List.find?_cons_of_neg (by simpa using h), ih,
            List.find?_cons_of_neg (by simpa using h)]

theorem find_filter (option name : Name) (os : List Opt) :
    (os.filter fun o => o.name ≠ name).find? (fun o => o.name = option) =
      if name = option then none else os.find? fun o => o.name = option := by
  by_cases h : name = option
  · rw [if_pos h, List.find?_eq_none]
    intro o ho
    have hne : o.name ≠ name := of_decide_eq_true (List.mem_filter.1 ho).2
    simpa using h ▸ hne
  · rw [if_neg h, List.find?_filter]
    congr 1
    funext o
    by_cases ho : o.name = option
    · simp [ho, Ne.symm h]
    · simp [ho]

/-- The options after one has been set. -/
theorem get_set (option name : Name) (v : List Char) (s : Section) :
    (s.set name v).get option =
      if name = option then (if v = [] then none else some (.str v)) else s.get option := by
  rw [Section.get, Section.set]
  by_cases hv : v = []
  · simp only [if_pos hv, find_filter]
    split
    · rfl
    · rfl
  · simp only [if_neg hv, find_putOption]
    split
    · rfl
    · rfl

theorem get_settings_kept {option : Name} {values : List (Name × List Char)}
    (h : option ∉ values.map Prod.fst) (s : Section) :
    ((settings values).foldl Section.change s).get option = s.get option := by
  induction values generalizing s with
  | nil => rfl
  | cons v values ih =>
      rw [List.map_cons] at h
      obtain ⟨hv, hvalues⟩ := List.ne_and_not_mem_of_not_mem_cons h
      have hset : (s.set v.1 v.2).get option = s.get option := by
        rw [get_set, if_neg (Ne.symm hv)]
      exact (ih hvalues (s.set v.1 v.2)).trans hset

theorem get_settings_forced {option : Name} {values : List (Name × List Char)}
    (h : option ∈ values.map Prod.fst) (s t : Section) :
    ((settings values).foldl Section.change s).get option =
      ((settings values).foldl Section.change t).get option := by
  induction values generalizing s t with
  | nil => cases h
  | cons v values ih =>
      by_cases hvalues : option ∈ values.map Prod.fst
      · exact ih hvalues (s.set v.1 v.2) (t.set v.1 v.2)
      · have hv : v.1 = option := ((List.mem_cons.1 h).resolve_right hvalues).symm
        have hset : ∀ u : Section, ((settings (v :: values)).foldl Section.change u).get option =
            if v.2 = [] then none else some (.str v.2) := by
          intro u
          refine (get_settings_kept hvalues (u.set v.1 v.2)).trans ?_
          rw [get_set, if_pos hv]
        rw [hset, hset]

/-- What a block does not set stays as it was. -/
theorem read_fill_kept {b : Block} {s : Section} {field : Option Name}
    (h : ¬ (s.name = some b.name ∧ field ∈ b.fields)) : (b.fill s).read field = s.read field := by
  rw [Block.fill]
  split
  · next hs =>
      have hfield : field ∉ b.fields := fun hmem => h ⟨hs, hmem⟩
      cases field with
      | none => exact absurd List.mem_cons_self hfield
      | some option =>
          refine get_settings_kept (fun hmem => hfield ?_) _
          obtain ⟨v, hv, rfl⟩ := List.mem_map.1 hmem
          exact List.mem_cons_of_mem _ (List.mem_map.2 ⟨v, hv, rfl⟩)
  · rfl

/-- What it sets does not depend on what was there. -/
theorem read_fill_forced {b : Block} {s t : Section} {field : Option Name}
    (hs : s.name = some b.name) (ht : t.name = some b.name) (hfield : field ∈ b.fields) :
    (b.fill s).read field = (b.fill t).read field := by
  rw [Block.fill, Block.fill, if_pos hs, if_pos ht]
  cases field with
  | none =>
      rw [Section.read, Section.read, (change_fields _ _).2, (change_fields _ _).2]
  | some option =>
      refine get_settings_forced ?_ _ _
      rcases List.mem_cons.1 hfield with heq | hmem
      · cases heq
      · obtain ⟨v, hv, heq⟩ := List.mem_map.1 hmem
        exact List.mem_map.2 ⟨v, hv, Option.some.inj heq⟩

/-- The blocks set a field of the section. -/
def Touches (bs : List Block) (s : Section) (field : Option Name) : Prop :=
  ∃ b ∈ bs, s.name = some b.name ∧ field ∈ b.fields

theorem read_fillAll_kept {bs : List Block} {s : Section} {field : Option Name}
    (h : ¬ Touches bs s field) : (fillAll bs s).read field = s.read field := by
  induction bs generalizing s with
  | nil => rfl
  | cons b bs ih =>
      have hrest : ¬ Touches bs (b.fill s) field := by
        rintro ⟨d, hd, hname, hfield⟩
        exact h ⟨d, List.mem_cons_of_mem b hd, (name_fill b s).symm.trans hname, hfield⟩
      have hfirst : (b.fill s).read field = s.read field :=
        read_fill_kept fun hb => h ⟨b, List.mem_cons_self, hb⟩
      exact (ih hrest).trans hfirst

theorem read_fillAll_forced {bs : List Block} {s t : Section} {field : Option Name}
    (h : Touches bs s field) (hname : s.name = t.name) :
    (fillAll bs s).read field = (fillAll bs t).read field := by
  induction bs generalizing s t with
  | nil =>
      obtain ⟨b, hb, -⟩ := h
      cases hb
  | cons b bs ih =>
      have hnames : (b.fill s).name = (b.fill t).name := by
        rw [name_fill, name_fill, hname]
      by_cases hrest : Touches bs (b.fill s) field
      · exact ih hrest hnames
      · have hrest' : ¬ Touches bs (b.fill t) field := by
          rintro ⟨d, hd, hdname, hfield⟩
          exact hrest ⟨d, hd, hnames.trans hdname, hfield⟩
        obtain ⟨d, hd, hdname, hfield⟩ := h
        have heq : d = b := by
          rcases List.mem_cons.1 hd with heq | hd
          · exact heq
          · exact absurd ⟨d, hd, (name_fill b s).trans hdname, hfield⟩ hrest
        subst heq
        calc (fillAll (d :: bs) s).read field = (d.fill s).read field := read_fillAll_kept hrest
          _ = (d.fill t).read field :=
            read_fill_forced hdname (hname.symm.trans hdname) hfield
          _ = (fillAll (d :: bs) t).read field := (read_fillAll_kept hrest').symm

/-! ### Again -/

/-- What is set, without the values. -/
def Block.shape (b : Block) : Name × Name × List Name := (b.name, b.type, b.values.map Prod.fst)

/-- The same fields are set. -/
theorem touches_of_shape {bs cs : List Block} (h : bs.map Block.shape = cs.map Block.shape)
    {s t : Section} (hname : s.name = t.name) {field : Option Name} (hb : Touches bs s field) :
    Touches cs t field := by
  obtain ⟨b, hb, hbname, hfield⟩ := hb
  have hmem : b.shape ∈ cs.map Block.shape := h ▸ List.mem_map.2 ⟨b, hb, rfl⟩
  obtain ⟨c, hc, hshape⟩ := List.mem_map.1 hmem
  have hcname : c.name = b.name := congrArg Prod.fst hshape
  have hvalues : c.values.map Prod.fst = b.values.map Prod.fst :=
    congrArg (fun p => p.2.2) hshape
  have hfields : ∀ d : Block, d.fields = none :: (d.values.map Prod.fst).map some := by
    intro d
    rw [Block.fields, List.map_map]
    rfl
  refine ⟨c, hc, ?_, ?_⟩
  · rw [← hname, hbname, hcname]
  · rwa [hfields, hvalues, ← hfields]

/-- What has been filled in before does not matter. -/
theorem same_fillAll {bs cs : List Block} (h : bs.map Block.shape = cs.map Block.shape)
    (s : Section) : (fillAll cs (fillAll bs s)).Same (fillAll cs s) where
  name := by rw [name_fillAll, name_fillAll, name_fillAll]
  read := by
    intro field
    by_cases hc : Touches cs (fillAll bs s) field
    · exact read_fillAll_forced hc (name_fillAll bs s)
    · have hs : ¬ Touches cs s field := fun hs =>
        hc (touches_of_shape rfl (name_fillAll bs s).symm hs)
      have hb : ¬ Touches bs s field := fun hb => hs (touches_of_shape h rfl hb)
      rw [read_fillAll_kept hc, read_fillAll_kept hs, read_fillAll_kept hb]

theorem ensureAll_of_shape {bs cs : List Block} (h : bs.map Block.shape = cs.map Block.shape)
    (ss : List Section) : ensureAll bs ss = ensureAll cs ss := by
  induction bs generalizing cs ss with
  | nil =>
      cases cs with
      | nil => rfl
      | cons c cs => cases h
  | cons b bs ih =>
      cases cs with
      | nil => cases h
      | cons c cs =>
          obtain ⟨hshape, hrest⟩ := List.cons.inj h
          have hname : b.name = c.name := congrArg Prod.fst hshape
          have htype : b.type = c.type := congrArg (fun p => p.2.1) hshape
          have hensure : b.ensure ss = c.ensure ss := by
            rw [Block.ensure, Block.ensure, hname, htype]
          calc ensureAll (b :: bs) ss = ensureAll bs (b.ensure ss) := rfl
            _ = ensureAll cs (c.ensure ss) := by rw [hensure, ih hrest]

/-- Two packages that read the same. -/
def SamePackage (ss ts : List Section) : Prop := List.Forall₂ Section.Same ss ts

theorem SamePackage.refl (ss : List Section) : SamePackage ss ss :=
  List.forall₂_same.2 fun _ _ => ⟨rfl, fun _ => rfl⟩

theorem SamePackage.trans {ss ts us : List Section} (hst : SamePackage ss ts)
    (htu : SamePackage ts us) : SamePackage ss us := by
  induction hst generalizing us with
  | nil => exact htu
  | cons hsame _ ih =>
      cases htu with
      | cons hsame' hrest =>
          exact List.Forall₂.cons ⟨hsame.name.trans hsame'.name,
            fun field => (hsame.read field).trans (hsame'.read field)⟩ (ih hrest)

/-- **After two runs a package reads as after the second one alone.** -/
theorem run_blocks_again {bs cs : List Block} (h : bs.map Block.shape = cs.map Block.shape)
    (ss : List Section) :
    SamePackage (run (cs.flatMap Block.edits) (run (bs.flatMap Block.edits) ss))
      (run (cs.flatMap Block.edits) ss) := by
  have hnames : ∀ name ∈ cs.map Block.name,
      name ∈ names ((ensureAll bs ss).map (fillAll bs)) := by
    intro name hname
    rw [names_map (name_fillAll bs), ensureAll_of_shape h]
    exact mem_names_ensureAll ss (Or.inr hname)
  rw [run_blocks, run_blocks, run_blocks, ensureAll_of_mem hnames, ensureAll_of_shape h,
    List.map_map, SamePackage, List.forall₂_map_left_iff, List.forall₂_map_right_iff]
  exact List.forall₂_same.2 fun s _ => same_fillAll h s

end Uci
