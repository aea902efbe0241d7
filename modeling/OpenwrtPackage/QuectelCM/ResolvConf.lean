/-
**The name servers of a call in /etc/resolv.conf.**

`update_resolv_conf` owns the lines that end in the tag of its address family and interface, and
shares the file with everybody else.  It reads the whole file into a table of 16 entries through a
buffer of 255 bytes, drops what contains the tag, and writes the file anew: its own lines first,
then the table.

* `QuectelCM.updateResolvConf` — the file afterwards, if it is written;
* `QuectelCM.FrameLaw` — what the others may rely on: their lines are kept, once each, as they
  were and in order, and a second call changes nothing;
* `QuectelCM.Fits` — the files on which that works;
* `QuectelCM.updateResolvConf_frame_iff` — **the law holds on exactly these files**.
-/
import Mathlib.Data.List.Infix
import OpenwrtPackage.Lib.CString
import OpenwrtPackage.Lib.TextFile

set_option relaxedAutoImplicit false
set_option autoImplicit false

namespace QuectelCM

open CString TextFile

/-! ### The call and its tag -/

/-- The arguments of `update_resolv_conf`, as its callers have them: the family is a literal 4 or
6, the name of the interface comes from an array of 32 bytes, and the addresses are printed by
`inet_ntop`. -/
structure ResolvCall where
  iptype : ℕ
  ifname : List Char
  dns1 : Option (List Char)
  dns2 : Option (List Char)
  family : iptype = 4 ∨ iptype = 6
  ifname_length : ifname.length < 32
  ifname_plain : '\n' ∉ ifname ∧ nul ∉ ifname
  dns_plain : ∀ d ∈ dns1.toList ++ dns2.toList, d.length < 64 ∧ '\n' ∉ d ∧ nul ∉ d

/-- The tag of a call: `# IPV%d %s`. -/
def ResolvCall.tag (c : ResolvCall) : List Char :=
  ['#', ' ', 'I', 'P', 'V'] ++ Nat.toDigits 10 c.iptype ++ [' '] ++ c.ifname

/-- `dns_tag`, the tag as it stands in its 64 bytes. -/
def ResolvCall.dnsTag (c : ResolvCall) : List Char :=
  cstr (snprintf (List.replicate 64 nul) 0 64 c.tag)

theorem ResolvCall.exists_tag (c : ResolvCall) :
    ∃ digit, digit ≠ '\n' ∧ digit ≠ nul ∧
      c.tag = ['#', ' ', 'I', 'P', 'V', digit, ' '] ++ c.ifname := by
  obtain h | h := c.family
  · exact ⟨'4', by decide, by decide, by rw [ResolvCall.tag, h]; rfl⟩
  · exact ⟨'6', by decide, by decide, by rw [ResolvCall.tag, h]; rfl⟩

theorem ResolvCall.tag_length (c : ResolvCall) : c.tag.length < 39 := by
  obtain ⟨_, -, -, h⟩ := c.exists_tag
  have := c.ifname_length
  rw [h, List.length_append]
  simp only [List.length_cons, List.length_nil]
  omega

theorem ResolvCall.newline_not_mem_tag (c : ResolvCall) : '\n' ∉ c.tag := by
  obtain ⟨digit, hdigit, -, h⟩ := c.exists_tag
  rw [h, List.mem_append, not_or]
  exact ⟨by simpa using hdigit.symm, c.ifname_plain.1⟩

theorem ResolvCall.nul_not_mem_tag (c : ResolvCall) : nul ∉ c.tag := by
  obtain ⟨digit, -, hdigit, h⟩ := c.exists_tag
  rw [h, List.mem_append, not_or]
  exact ⟨by simpa [nul] using hdigit.symm, c.ifname_plain.2⟩

/-- The tag is never cut. -/
@[simp] theorem ResolvCall.dnsTag_eq (c : ResolvCall) : c.dnsTag = c.tag := by
  have hlen := c.tag_length
  rw [ResolvCall.dnsTag, cstr_snprintf _ (by decide) c.nul_not_mem_tag]
  exact List.take_of_length_le (by omega)

theorem ResolvCall.tag_not_infix_newline (c : ResolvCall) : ¬ c.tag <:+: ['\n'] := by
  obtain ⟨digit, -, -, h⟩ := c.exists_tag
  intro hinfix
  have hmem : '#' ∈ ['\n'] := hinfix.subset (by rw [h]; exact List.mem_cons_self ..)
  exact absurd hmem (by decide)

/-! ### The function -/

/-- What becomes of a piece in `dns_line`: the string in the buffer, without a newline at its end
unless the newline is all there is. -/
def dnsLine (piece : List Char) : List Char :=
  let s := cstr piece
  if 1 < s.length ∧ s.getLast? = some '\n' then s.dropLast else s

/-- `MAX_DNS`. -/
def maxDns : ℕ := 16

/-- How many characters `fgets(dns_line, sizeof(dns_line)-1, dns_fp)` reads at most. -/
def dnsLineSize : ℕ := 254

/-- The loop that reads the file, with `room` entries of `dns_info` left: the entries it fills and
how often it finds the tag.  It leaves the file when the table is full. -/
def readLoop (dnsTag : List Char) : ℕ → List (List Char) → List (List Char) × ℕ
  | 0, _ => ([], 0)
  | _ + 1, [] => ([], 0)
  | room + 1, piece :: ps =>
      if dnsTag <:+: dnsLine piece then
        let r := readLoop dnsTag (room + 1) ps
        (r.1, r.2 + 1)
      else
        let r := readLoop dnsTag room ps
        (dnsLine piece :: r.1, r.2)

/-- `nameserver %s %s` for an address that is not `NULL`. -/
def nameserver (dnsTag : List Char) (dns : Option (List Char)) : List (List Char) :=
  dns.toList.map fun d => "nameserver ".toList ++ d ++ [' '] ++ dnsTag

/-- The new lines of the call. -/
def ResolvCall.nameservers (c : ResolvCall) : List (List Char) :=
  nameserver c.dnsTag c.dns1 ++ nameserver c.dnsTag c.dns2

/-- What `update_resolv_conf` writes over the file `content`, or `none` where it leaves the file
alone.  A file that does not exist reads as an empty one. -/
def updateResolvConf (c : ResolvCall) (content : List Char) : Option (List Char) :=
  let read := readLoop c.dnsTag maxDns (pieces dnsLineSize content)
  if c.dns1 = none ∧ read.2 = 0 then none
  else some ((c.nameservers ++ read.1).flatMap (· ++ ['\n']))

/-! ### The law -/

/-- The loop again, over pieces that carry the number of the line they are read from, with the
numbers of what it stores. -/
def readLoopAt (dnsTag : List Char) :
    ℕ → List (ℕ × List Char) → List (ℕ × List Char)
  | 0, _ => []
  | _ + 1, [] => []
  | room + 1, piece :: ps =>
      if dnsTag <:+: dnsLine piece.2 then readLoopAt dnsTag (room + 1) ps
      else (piece.1, dnsLine piece.2) :: readLoopAt dnsTag room ps

/-- The pieces of lines numbered from `k`, each with the number of its line. -/
def numberedPieces (k : ℕ) (ls : List Line) : List (ℕ × List Char) :=
  (ls.zipIdx k).flatMap fun x => (pieces dnsLineSize x.1.raw).map (x.2, ·)

/-- The texts of the lines that `fprintf(dns_fp, "%s\n", …)` writes for an entry. -/
def writtenTexts (entry : List Char) : List (List Char) := (linesOf (entry ++ ['\n'])).map Line.text

/-- The lines written for the table, each with the number of the line it was read from. -/
def writtenAt (entries : List (ℕ × List Char)) : List (ℕ × List Char) :=
  entries.flatMap fun e => (writtenTexts e.2).map (e.1, ·)

/-- The lines numbered from `k` that do not end in the tag, with their numbers. -/
def untaggedAt (tag : List Char) (k : ℕ) (ls : List Line) : List (ℕ × List Char) :=
  ((ls.zipIdx k).filter fun x => ¬ tag <:+ x.1.text).map fun x => (x.2, x.1.text)

/-- The texts of the lines that do not end in the tag. -/
def untagged (tag : List Char) (ls : List Line) : List (List Char) :=
  (ls.map Line.text).filter fun t => ¬ tag <:+ t

/-- What the rest of the system may rely on when a call turns `content` into `new`. -/
structure FrameLaw (c : ResolvCall) (content new : List Char) : Prop where
  /-- What is written behind the new lines are the lines of the others, every one of them once. -/
  kept : writtenAt (readLoopAt c.dnsTag maxDns (numberedPieces 0 (linesOf content))) =
    untaggedAt c.tag 0 (linesOf content)
  /-- The lines of the file are the new lines and the lines of the others. -/
  lines : (linesOf new).map Line.text = c.nameservers ++ untagged c.tag (linesOf content)
  /-- The same call again leaves the file as it is. -/
  twice : (updateResolvConf c new).getD new = new

/-- What a line without the tag needs: it has a character and no NUL, nowhere contains the tag,
and fits into the buffer with its newline and into the table, or fills the buffer without its
newline and takes the last entry. -/
def LineFits (tag : List Char) (lineLength : Line → ℕ) (room : ℕ) (l : Line) : Prop :=
  (l.text ≠ [] ∧ nul ∉ l.text ∧ ¬ tag <:+: l.text) ∧
    (lineLength l ≤ dnsLineSize ∧ 0 < room ∨ l.text.length = dnsLineSize ∧ room = 1)

/-- The lines that a table with `room` free entries takes in as they are.  A line with the tag
must show it in every piece as long as there is room, and any other line must fit. -/
def Fits (tag : List Char) (lineLength : Line → ℕ) : ℕ → List Line → Prop
  | _, [] => True
  | room, l :: ls =>
      if tag <:+ l.text then
        (room = 0 ∨ ∀ p ∈ pieces dnsLineSize l.raw, tag <:+: dnsLine p) ∧
          Fits tag lineLength room ls
      else LineFits tag lineLength room l ∧ Fits tag lineLength (room - 1) ls

/-- The length of a line as it stands in the file. -/
def rawLength (l : Line) : ℕ := l.raw.length

/-- The length of a line with the newline that `fprintf` puts behind it. -/
def endedLength (l : Line) : ℕ := l.text.length + 1

/-- The length that counts.  A call without addresses leaves no line of its own, so the same call
again does not write the file and the newline put behind the last line does no harm. -/
def ResolvCall.lineLength (c : ResolvCall) : Line → ℕ :=
  if c.dns1 = none ∧ c.dns2 = none then rawLength else endedLength

/-! ### What the loop stores -/

/-- The pieces that the loop does not drop, as they stand in `dns_line`. -/
def storable (tag : List Char) (ps : List (ℕ × List Char)) : List (ℕ × List Char) :=
  (ps.map fun p => (p.1, dnsLine p.2)).filter fun p => ¬ tag <:+: p.2

@[simp] theorem storable_nil (tag : List Char) : storable tag [] = [] := rfl

theorem storable_append (tag : List Char) (ps qs : List (ℕ × List Char)) :
    storable tag (ps ++ qs) = storable tag ps ++ storable tag qs := by
  rw [storable, List.map_append, List.filter_append]
  rfl

theorem storable_cons (tag : List Char) (p : ℕ × List Char) (ps : List (ℕ × List Char)) :
    storable tag (p :: ps) =
      if tag <:+: dnsLine p.2 then storable tag ps else (p.1, dnsLine p.2) :: storable tag ps := by
  by_cases h : tag <:+: dnsLine p.2
  · simp [storable, h]
  · simp [storable, h]

theorem readLoopAt_eq (tag : List Char) (room : ℕ) (ps : List (ℕ × List Char)) :
    readLoopAt tag room ps = (storable tag ps).take room := by
  induction ps generalizing room with
  | nil => cases room <;> rfl
  | cons p ps ih =>
      cases room with
      | zero => rfl
      | succ room =>
          rw [readLoopAt, storable_cons]
          by_cases h : tag <:+: dnsLine p.2
          · rw [if_pos h, if_pos h, ih]
          · rw [if_neg h, if_neg h, ih, List.take_succ_cons]

/-- Without the numbers the loop is the loop of the source. -/
theorem readLoopAt_snd (tag : List Char) (room : ℕ) (ps : List (ℕ × List Char)) :
    (readLoop tag room (ps.map Prod.snd)).1 = (readLoopAt tag room ps).map Prod.snd := by
  induction ps generalizing room with
  | nil => cases room <;> rfl
  | cons p ps ih =>
      cases room with
      | zero => rfl
      | succ room =>
          rw [List.map_cons, readLoop, readLoopAt]
          by_cases h : tag <:+: dnsLine p.2
          · simp only [if_pos h, ih]
          · simp only [if_neg h, ih, List.map_cons]

theorem numberedPieces_cons (k : ℕ) (l : Line) (ls : List Line) :
    numberedPieces k (l :: ls) =
      (pieces dnsLineSize l.raw).map (k, ·) ++ numberedPieces (k + 1) ls := by
  rw [numberedPieces, List.zipIdx_cons, List.flatMap_cons]
  rfl

/-- The numbered pieces are the pieces of the file. -/
theorem numberedPieces_snd {ls : List Line} (h : IsFile ls) (k : ℕ) :
    (numberedPieces k ls).map Prod.snd = pieces dnsLineSize (ls.flatMap Line.raw) := by
  rw [pieces_eq_flatMap (by decide) h]
  induction ls generalizing k with
  | nil => rfl
  | cons l ls ih =>
      rw [numberedPieces_cons, List.map_append, ih h.2.2, List.flatMap_cons, List.map_map]
      congr 1
      exact List.map_id _

/-- What the source stores of a file are the numbered entries without their numbers. -/
theorem readLoop_entries (tag content : List Char) (room : ℕ) :
    (readLoop tag room (pieces dnsLineSize content)).1 =
      (readLoopAt tag room (numberedPieces 0 (linesOf content))).map Prod.snd := by
  rw [← readLoopAt_snd, numberedPieces_snd (isFile_linesOf content), flatMap_raw_linesOf]

/-! ### What is written for an entry -/

/-- A piece without a newline stays the string it is. -/
theorem dnsLine_of_not_mem {t : List Char} (ht : '\n' ∉ t) : dnsLine t = cstr t := by
  rw [dnsLine]
  refine if_neg ?_
  rintro ⟨-, hlast⟩
  have hmem : '\n' ∈ cstr t := List.mem_of_getLast? hlast
  exact ht ((List.takeWhile_subset _) hmem)

/-- A newline behind some text is cut off. -/
theorem dnsLine_append_newline {t : List Char} (ht : '\n' ∉ t) (hne : t ≠ []) :
    dnsLine (t ++ ['\n']) = cstr t := by
  by_cases hnul : nul ∈ t
  · have h : cstr (t ++ ['\n']) = cstr t := cstr_append_of_mem hnul _
    have hplain := dnsLine_of_not_mem ht
    rw [dnsLine] at hplain ⊢
    rwa [h]
  · have h : cstr (t ++ ['\n']) = t ++ ['\n'] := cstr_eq_self (by simpa using ⟨hnul, by decide⟩)
    have hlen : 1 < (t ++ ['\n']).length := by
      have := List.length_pos_iff.2 hne
      rw [List.length_append]
      exact Nat.succ_lt_succ this
    rw [dnsLine, h]
    rw [if_pos ⟨hlen, List.getLast?_concat⟩, List.dropLast_concat, cstr_eq_self hnul]

theorem dnsLine_newline : dnsLine ['\n'] = ['\n'] := by decide

/-- Every piece leaves a string without a newline in the buffer, or the newline alone. -/
theorem dnsLine_piece {l : Line} (hl : '\n' ∉ l.text) {p : List Char}
    (hp : p ∈ pieces dnsLineSize l.raw) :
    dnsLine p = ['\n'] ∨
      '\n' ∉ dnsLine p ∧ nul ∉ dnsLine p ∧ (dnsLine p).length ≤ dnsLineSize := by
  obtain ⟨hlen, t, ht, rfl | rfl⟩ := mem_pieces_raw (by decide) hl hp
  · rw [dnsLine_of_not_mem ht]
    exact Or.inr ⟨fun h => ht ((List.takeWhile_subset _) h), nul_not_mem_cstr _,
      (List.takeWhile_prefix _).length_le.trans hlen⟩
  · by_cases hne : t = []
    · rw [hne]
      exact Or.inl dnsLine_newline
    · rw [dnsLine_append_newline ht hne]
      rw [List.length_append] at hlen
      exact Or.inr ⟨fun h => ht ((List.takeWhile_subset _) h), nul_not_mem_cstr _,
        (List.takeWhile_prefix _).length_le.trans (Nat.le_of_succ_le hlen)⟩

theorem writtenTexts_of_not_mem {e : List Char} (h : '\n' ∉ e) : writtenTexts e = [e] := by
  rw [writtenTexts, linesOf_append_newline h]
  rfl

theorem writtenTexts_newline : writtenTexts ['\n'] = [[], []] := rfl

theorem writtenTexts_ne_nil (e : List Char) : writtenTexts e ≠ [] := by
  intro h
  have hraw := flatMap_raw_linesOf (e ++ ['\n'])
  rw [writtenTexts, List.map_eq_nil_iff] at h
  rw [h] at hraw
  exact absurd hraw.symm (by simp)

theorem writtenAt_append (es fs : List (ℕ × List Char)) :
    writtenAt (es ++ fs) = writtenAt es ++ writtenAt fs := List.flatMap_append

theorem writtenAt_eq_nil {es : List (ℕ × List Char)} : writtenAt es = [] ↔ es = [] := by
  rw [writtenAt, List.flatMap_eq_nil_iff]
  constructor
  · intro h
    cases es with
    | nil => rfl
    | cons e es =>
        have := h e (List.mem_cons_self ..)
        exact absurd (List.map_eq_nil_iff.1 this) (writtenTexts_ne_nil _)
  · rintro rfl e he
    cases he

theorem writtenAt_eq_singleton {es : List (ℕ × List Char)} {k : ℕ} {t : List Char} :
    writtenAt es = [(k, t)] ↔ ∃ e, es = [(k, e)] ∧ writtenTexts e = [t] := by
  constructor
  · intro h
    cases es with
    | nil => cases h
    | cons e es =>
        obtain ⟨n, e⟩ := e
        obtain ⟨u, us, hu⟩ := List.exists_cons_of_ne_nil (writtenTexts_ne_nil e)
        rw [writtenAt, List.flatMap_cons, hu, List.map_cons, List.cons_append,
          List.cons_eq_cons] at h
        obtain ⟨hhead, htail⟩ := h
        obtain ⟨hus, hes⟩ := List.append_eq_nil_iff.1 htail
        obtain ⟨rfl, rfl⟩ := Prod.mk.inj hhead
        rw [List.map_eq_nil_iff.1 hus] at hu
        exact ⟨e, by rw [writtenAt_eq_nil.1 hes], hu⟩
  · rintro ⟨e, rfl, he⟩
    rw [writtenAt, List.flatMap_cons, he]
    rfl

/-! ### One line -/

theorem mem_storable_pieces {tag : List Char} {k n : ℕ} {e : List Char} {ps : List (List Char)}
    (h : (n, e) ∈ storable tag (ps.map (k, ·))) :
    n = k ∧ ¬ tag <:+: e ∧ ∃ p ∈ ps, dnsLine p = e := by
  obtain ⟨hmem, htag⟩ := List.mem_filter.1 h
  obtain ⟨q, hq, heq⟩ := List.mem_map.1 hmem
  obtain ⟨p, hp, rfl⟩ := List.mem_map.1 hq
  obtain ⟨rfl, rfl⟩ := Prod.mk.inj heq
  exact ⟨rfl, by simpa using htag, p, hp, rfl⟩

/-- Nothing of a tagged line is stored when every piece of it shows the tag. -/
theorem storable_eq_nil {tag : List Char} {k : ℕ} {ps : List (List Char)} :
    storable tag (ps.map (k, ·)) = [] ↔ ∀ p ∈ ps, tag <:+: dnsLine p := by
  rw [storable, List.filter_eq_nil_iff]
  simp

theorem dnsLine_raw {l : Line} (hl : '\n' ∉ l.text) (hne : l.text ≠ []) :
    dnsLine l.raw = cstr l.text := by
  obtain ⟨text, ended⟩ := l
  cases ended with
  | true => exact dnsLine_append_newline hl hne
  | false =>
      have hraw : (⟨text, false⟩ : Line).raw = text := List.append_nil _
      rw [hraw]
      exact dnsLine_of_not_mem hl

/-- What is stored of a line that fits. -/
theorem storable_of_le {tag : List Char} {k : ℕ} {l : Line} (hl : '\n' ∉ l.text)
    (hne : l.text ≠ []) (hnul : nul ∉ l.text) (htag : ¬ tag <:+: l.text)
    (hfit : l.raw.length ≤ dnsLineSize) :
    storable tag ((pieces dnsLineSize l.raw).map (k, ·)) = [(k, l.text)] := by
  have hraw : l.raw ≠ [] := fun h => hne (List.append_eq_nil_iff.1 h).1
  have hline : dnsLine l.raw = l.text := (dnsLine_raw hl hne).trans (cstr_eq_self hnul)
  rw [pieces_raw_of_le hl hraw hfit, List.map_singleton, storable_cons]
  simp only [hline, if_neg htag, storable_nil]

/-- What is stored of a line whose newline does not fit. -/
theorem storable_of_eq {tag : List Char} (hnl : ¬ tag <:+: ['\n']) {k : ℕ} {text : List Char}
    (hl : '\n' ∉ text) (hnul : nul ∉ text) (htag : ¬ tag <:+: text)
    (hlen : text.length = dnsLineSize) :
    storable tag ((pieces dnsLineSize (text ++ ['\n'])).map (k, ·)) = [(k, text), (k, ['\n'])] := by
  have hself : dnsLine text = text := (dnsLine_of_not_mem hl).trans (cstr_eq_self hnul)
  rw [pieces_raw_of_eq (by decide) hl hlen, List.map_cons, List.map_singleton, storable_cons,
    storable_cons]
  simp only [hself, dnsLine_newline, if_neg htag, if_neg hnl, storable_nil]

/-- A line that comes out as it was fits. -/
theorem lineFits_of_written {tag : List Char} (hnl : ¬ tag <:+: ['\n']) {room k : ℕ} {l : Line}
    (hl : '\n' ∉ l.text) (hraw : l.raw ≠ []) {e : List Char}
    (htake : (storable tag ((pieces dnsLineSize l.raw).map (k, ·))).take room = [(k, e)])
    (hwritten : writtenTexts e = [l.text]) : LineFits tag rawLength room l := by
  have hmem : (k, e) ∈ storable tag ((pieces dnsLineSize l.raw).map (k, ·)) :=
    List.mem_of_mem_take (by rw [htake]; exact List.mem_singleton_self _)
  have hroom : 0 < room := by
    rcases Nat.eq_zero_or_pos room with rfl | h
    · cases htake
    · exact h
  obtain ⟨-, htag, p, hp, hpe⟩ := mem_storable_pieces hmem
  obtain hline | ⟨hplain, hnul, hlen⟩ := dnsLine_piece hl hp
  · rw [← hpe, hline, writtenTexts_newline] at hwritten
    exact absurd (congrArg List.length hwritten) (by simp)
  rw [hpe] at hplain hnul hlen
  obtain rfl : e = l.text := by
    rw [writtenTexts_of_not_mem hplain] at hwritten
    exact List.head_eq_of_cons_eq hwritten
  obtain ⟨text, ended⟩ := l
  by_cases hshort : (⟨text, ended⟩ : Line).raw.length ≤ dnsLineSize
  · refine ⟨⟨?_, hnul, htag⟩, Or.inl ⟨hshort, hroom⟩⟩
    intro hnil
    -- a blank line would have been stored as its newline
    rw [pieces_raw_of_le hl hraw hshort, List.mem_singleton] at hp
    rw [hp] at hpe
    obtain rfl : text = [] := hnil
    cases ended with
    | true => exact absurd hpe (by decide)
    | false => exact hraw rfl
  · have hended : ended = true := by
      cases ended with
      | true => rfl
      | false => exact absurd hlen (by simpa [Line.raw] using hshort)
    subst hended
    have heq : text.length = dnsLineSize := by
      have hlong : ¬ (text ++ ['\n']).length ≤ dnsLineSize := hshort
      rw [List.length_append, List.length_singleton] at hlong
      exact Nat.le_antisymm hlen (by omega)
    refine ⟨⟨?_, hnul, htag⟩, Or.inr ⟨heq, ?_⟩⟩
    · rintro rfl
      cases heq
    · rw [show (⟨text, true⟩ : Line).raw = text ++ ['\n'] from rfl,
        storable_of_eq hnl hl hnul htag heq] at htake
      have hcount := congrArg List.length htake
      simp only [List.length_take, List.length_cons, List.length_nil] at hcount
      omega

/-- What is stored of a line that fits, as far as there is room. -/
theorem take_storable_of_fits {tag : List Char} (hnl : ¬ tag <:+: ['\n']) {room k : ℕ} {l : Line}
    (hl : '\n' ∉ l.text) (h : LineFits tag rawLength room l) :
    (storable tag ((pieces dnsLineSize l.raw).map (k, ·))).take room = [(k, l.text)] := by
  obtain ⟨⟨hne, hnul, htag⟩, ⟨hfit, hroom⟩ | ⟨hlen, rfl⟩⟩ := h
  · rw [storable_of_le hl hne hnul htag hfit]
    exact List.take_of_length_le hroom
  · obtain ⟨text, ended⟩ := l
    cases ended with
    | false =>
        have hraw : (⟨text, false⟩ : Line).raw.length ≤ dnsLineSize := by
          simpa [Line.raw] using Nat.le_of_eq hlen
        rw [storable_of_le hl hne hnul htag hraw]
        rfl
    | true =>
        rw [show (⟨text, true⟩ : Line).raw = text ++ ['\n'] from rfl,
          storable_of_eq hnl hl hnul htag hlen]
        rfl

/-- A line comes out as it was exactly when it fits. -/
theorem written_line_iff {tag : List Char} (hnl : ¬ tag <:+: ['\n']) {room k : ℕ} {l : Line}
    (hl : '\n' ∉ l.text) (hraw : l.raw ≠ []) :
    writtenAt ((storable tag ((pieces dnsLineSize l.raw).map (k, ·))).take room) = [(k, l.text)] ↔
      LineFits tag rawLength room l := by
  rw [writtenAt_eq_singleton]
  constructor
  · rintro ⟨e, htake, hwritten⟩
    exact lineFits_of_written hnl hl hraw htake hwritten
  · intro h
    exact ⟨l.text, take_storable_of_fits hnl hl h, writtenTexts_of_not_mem hl⟩

/-! ### The whole file -/

theorem append_inj_of_keys {xs xs' ys ys' : List (ℕ × List Char)} {k : ℕ}
    (hxs : ∀ x ∈ xs, x.1 = k) (hxs' : ∀ x ∈ xs', x.1 = k) (hys : ∀ y ∈ ys, k < y.1)
    (hys' : ∀ y ∈ ys', k < y.1) (h : xs ++ ys = xs' ++ ys') : xs = xs' ∧ ys = ys' := by
  have hfront : ∀ {as bs : List (ℕ × List Char)}, (∀ x ∈ as, x.1 = k) → (∀ y ∈ bs, k < y.1) →
      (as ++ bs).filter (fun x => x.1 = k) = as := by
    intro as bs has hbs
    rw [List.filter_append, List.filter_eq_self.2 (by simpa using has), List.filter_eq_nil_iff.2,
      List.append_nil]
    intro y hy
    simpa using Nat.ne_of_gt (hbs y hy)
  have heq : xs = xs' := by rw [← hfront hxs hys, h, hfront hxs' hys']
  subst heq
  exact ⟨rfl, List.append_cancel_left h⟩

theorem mem_writtenAt {es : List (ℕ × List Char)} {x : ℕ × List Char} (h : x ∈ writtenAt es) :
    ∃ e ∈ es, x.1 = e.1 := by
  obtain ⟨e, he, hx⟩ := List.mem_flatMap.1 h
  obtain ⟨t, -, rfl⟩ := List.mem_map.1 hx
  exact ⟨e, he, rfl⟩

theorem le_of_mem_numberedPieces {ls : List Line} {k : ℕ} {p : ℕ × List Char}
    (h : p ∈ numberedPieces k ls) : k ≤ p.1 := by
  obtain ⟨x, hx, hp⟩ := List.mem_flatMap.1 h
  obtain ⟨q, -, rfl⟩ := List.mem_map.1 hp
  exact List.le_snd_of_mem_zipIdx hx

theorem le_of_mem_storable {tag : List Char} {ls : List Line} {k : ℕ} {p : ℕ × List Char}
    (h : p ∈ storable tag (numberedPieces k ls)) : k ≤ p.1 := by
  obtain ⟨q, hq, rfl⟩ := List.mem_map.1 (List.mem_filter.1 h).1
  exact le_of_mem_numberedPieces (p := q) hq

theorem le_of_mem_untaggedAt {tag : List Char} {ls : List Line} {k : ℕ} {p : ℕ × List Char}
    (h : p ∈ untaggedAt tag k ls) : k ≤ p.1 := by
  obtain ⟨x, hx, rfl⟩ := List.mem_map.1 h
  exact List.le_snd_of_mem_zipIdx (List.mem_filter.1 hx).1

theorem untaggedAt_cons (tag : List Char) (k : ℕ) (l : Line) (ls : List Line) :
    untaggedAt tag k (l :: ls) =
      (if tag <:+ l.text then [] else [(k, l.text)]) ++ untaggedAt tag (k + 1) ls := by
  by_cases h : tag <:+ l.text
  · simp [untaggedAt, List.zipIdx_cons, h]
  · simp [untaggedAt, List.zipIdx_cons, h]

/-- A first line and the rest of the file come out one after the other. -/
theorem written_cons_iff {tag : List Char} {room k : ℕ} {l : Line} {ls : List Line} :
    writtenAt ((storable tag (numberedPieces k (l :: ls))).take room) =
        untaggedAt tag k (l :: ls) ↔
      writtenAt ((storable tag ((pieces dnsLineSize l.raw).map (k, ·))).take room) =
        (if tag <:+ l.text then [] else [(k, l.text)]) ∧
      writtenAt ((storable tag (numberedPieces (k + 1) ls)).take
        (room - (storable tag ((pieces dnsLineSize l.raw).map (k, ·))).length)) =
        untaggedAt tag (k + 1) ls := by
  rw [numberedPieces_cons, storable_append, List.take_append, writtenAt_append, untaggedAt_cons]
  constructor
  -- What comes from the first line carries the key `k`, and all that comes later a greater one,
  -- so two equal lists split at the same place.
  · refine append_inj_of_keys (k := k) ?_ ?_ ?_ ?_
    · intro x hx
      obtain ⟨e, he, hxe⟩ := mem_writtenAt hx
      exact hxe.trans (mem_storable_pieces (List.mem_of_mem_take he)).1
    · intro x hx
      by_cases h : tag <:+ l.text
      · rw [if_pos h] at hx
        cases hx
      · rw [if_neg h, List.mem_singleton] at hx
        rw [hx]
    · intro y hy
      obtain ⟨e, he, hye⟩ := mem_writtenAt hy
      exact hye ▸ le_of_mem_storable (List.mem_of_mem_take he)
    · intro y hy
      exact le_of_mem_untaggedAt hy
  · rintro ⟨hline, hrest⟩
    rw [hline, hrest]

/-- How many entries a line takes of a table that has room for it. -/
theorem room_sub_length {tag : List Char} {room k : ℕ} {l : Line}
    (h : writtenAt ((storable tag ((pieces dnsLineSize l.raw).map (k, ·))).take room) =
      [(k, l.text)]) :
    room - (storable tag ((pieces dnsLineSize l.raw).map (k, ·))).length = room - 1 := by
  obtain ⟨e, htake, -⟩ := writtenAt_eq_singleton.1 h
  have := congrArg List.length htake
  rw [List.length_take, List.length_singleton] at this
  omega

/-- The lines without the tag come out of the loop exactly when all of them fit. -/
theorem written_iff {tag : List Char} (hnl : ¬ tag <:+: ['\n']) {ls : List Line}
    (h : IsFile ls) (room k : ℕ) :
    writtenAt ((storable tag (numberedPieces k ls)).take room) = untaggedAt tag k ls ↔
      Fits tag rawLength room ls := by
  induction ls generalizing room k with
  | nil =>
      rw [show numberedPieces k [] = [] from rfl, storable_nil, List.take_nil]
      exact iff_of_true rfl trivial
  | cons l ls ih =>
      rw [written_cons_iff, Fits]
      -- A tagged line must take no entry of the table and leaves the room as it is; another one
      -- must take exactly one.
      by_cases htag : tag <:+ l.text
      · rw [if_pos htag, if_pos htag, writtenAt_eq_nil, List.take_eq_nil_iff, storable_eq_nil]
        refine and_congr_right fun hdropped => ?_
        have hroom : room - (storable tag ((pieces dnsLineSize l.raw).map (k, ·))).length =
            room := by
          obtain rfl | hall := hdropped
          · exact Nat.zero_sub _
          · rw [storable_eq_nil.2 hall]
            rfl
        rw [hroom]
        exact ih h.2.2 room (k + 1)
      · rw [if_neg htag, if_neg htag, ← written_line_iff hnl h.1 h.raw_ne_nil]
        refine and_congr_right fun hline => ?_
        rw [room_sub_length hline]
        exact ih h.2.2 (room - 1) (k + 1)

/-! ### The file that is written -/

theorem untagged_cons (tag : List Char) (l : Line) (ls : List Line) :
    untagged tag (l :: ls) = (if tag <:+ l.text then [] else [l.text]) ++ untagged tag ls := by
  by_cases h : tag <:+ l.text
  · simp [untagged, h]
  · simp [untagged, h]

theorem untaggedAt_snd (tag : List Char) (k : ℕ) (ls : List Line) :
    (untaggedAt tag k ls).map Prod.snd = untagged tag ls := by
  induction ls generalizing k with
  | nil => rfl
  | cons l ls ih =>
      rw [untaggedAt_cons, untagged_cons, List.map_append, ih]
      by_cases h : tag <:+ l.text
      · rw [if_pos h, if_pos h, List.map_nil]
      · rw [if_neg h, if_neg h, List.map_singleton]

/-- The lines written for the entries are the entries with a newline behind each. -/
theorem flatMap_writtenAt (es : List (ℕ × List Char)) :
    ((writtenAt es).map Prod.snd).flatMap (· ++ ['\n']) =
      (es.map Prod.snd).flatMap (· ++ ['\n']) := by
  induction es with
  | nil => rfl
  | cons e es ih =>
      have hone : ((writtenTexts e.2).map (e.1, ·)).map Prod.snd = writtenTexts e.2 := by
        rw [List.map_map]
        exact List.map_id _
      rw [writtenAt, List.flatMap_cons, List.map_append, List.flatMap_append, hone,
        writtenTexts, flatMap_text_linesOf, List.map_cons, List.flatMap_cons]
      exact congrArg _ ih

/-- What is written for the entries of a file that fits are its lines without the tag. -/
theorem entries_of_fits {c : ResolvCall} {content : List Char}
    (h : Fits c.tag rawLength maxDns (linesOf content)) :
    (readLoop c.dnsTag maxDns (pieces dnsLineSize content)).1.flatMap (· ++ ['\n']) =
      (untagged c.tag (linesOf content)).flatMap (· ++ ['\n']) := by
  have hwritten := (written_iff c.tag_not_infix_newline (isFile_linesOf content) maxDns 0).2 h
  rw [← readLoopAt_eq] at hwritten
  rw [c.dnsTag_eq, readLoop_entries, ← flatMap_writtenAt, hwritten, untaggedAt_snd]

theorem updateResolvConf_cases {c : ResolvCall} {content new : List Char}
    (h : updateResolvConf c content = some new) :
    new = (c.nameservers ++ (readLoop c.dnsTag maxDns (pieces dnsLineSize content)).1).flatMap
      (· ++ ['\n']) := by
  rw [updateResolvConf] at h
  split at h
  · cases h
  · exact (Option.some.inj h).symm

/-- The file that is written when the old one fits. -/
theorem new_of_fits {c : ResolvCall} {content new : List Char}
    (h : updateResolvConf c content = some new)
    (hfits : Fits c.tag rawLength maxDns (linesOf content)) :
    new = (c.nameservers ++ untagged c.tag (linesOf content)).flatMap (· ++ ['\n']) := by
  rw [updateResolvConf_cases h, List.flatMap_append, List.flatMap_append, entries_of_fits hfits]

theorem ResolvCall.mem_nameservers {c : ResolvCall} {t : List Char} (h : t ∈ c.nameservers) :
    c.tag <:+ t ∧ '\n' ∉ t ∧ nul ∉ t ∧ t.length < dnsLineSize := by
  have hd : ∃ d ∈ c.dns1.toList ++ c.dns2.toList,
      t = "nameserver ".toList ++ d ++ [' '] ++ c.tag := by
    rw [ResolvCall.nameservers, nameserver, nameserver, ← List.map_append, c.dnsTag_eq] at h
    obtain ⟨d, hd, rfl⟩ := List.mem_map.1 h
    exact ⟨d, hd, rfl⟩
  obtain ⟨d, hd, rfl⟩ := hd
  obtain ⟨hlen, hline, hnul⟩ := c.dns_plain d hd
  have hword : ("nameserver ".toList).length = 11 := by decide
  refine ⟨List.suffix_append _ _, ?_, ?_, ?_⟩
  · simp only [List.mem_append, not_or]
    exact ⟨⟨⟨by decide, hline⟩, by decide⟩, c.newline_not_mem_tag⟩
  · simp only [List.mem_append, not_or]
    exact ⟨⟨⟨by decide, hnul⟩, by decide⟩, c.nul_not_mem_tag⟩
  · have := c.tag_length
    simp only [List.length_append, hword, List.length_singleton, dnsLineSize]
    omega

theorem newline_not_mem_untagged {tag : List Char} {ls : List Line} (h : IsFile ls) :
    ∀ t ∈ untagged tag ls, '\n' ∉ t := by
  induction ls with
  | nil => intro t ht; cases ht
  | cons l ls ih =>
      intro t ht
      obtain ⟨hmem, htag⟩ := List.mem_filter.1 ht
      obtain rfl | hmem := List.mem_cons.1 hmem
      · exact h.1
      · exact ih h.2.2 t (List.mem_filter.2 ⟨hmem, htag⟩)

theorem ResolvCall.linesOf_written (c : ResolvCall) {ls : List Line} (h : IsFile ls) :
    linesOf ((c.nameservers ++ untagged c.tag ls).flatMap (· ++ ['\n'])) =
      (c.nameservers ++ untagged c.tag ls).map endedLine := by
  have hplain : ∀ t ∈ c.nameservers ++ untagged c.tag ls, '\n' ∉ t := by
    intro t ht
    obtain ht | ht := List.mem_append.1 ht
    · exact (c.mem_nameservers ht).2.1
    · exact newline_not_mem_untagged h t ht
  have hfile := linesOf_flatMap_raw (isFile_map_ended hplain)
  rwa [List.flatMap_map] at hfile

/-! ### The same call again -/

/-- The new lines are dropped as they are read. -/
theorem ResolvCall.nameserver_dropped {c : ResolvCall} {t p : List Char} (ht : t ∈ c.nameservers)
    (hp : p ∈ pieces dnsLineSize (endedLine t).raw) : c.tag <:+: dnsLine p := by
  obtain ⟨htag, hline, hnul, hlen⟩ := c.mem_nameservers ht
  have hne : t ≠ [] := by
    rintro rfl
    have := List.length_eq_zero_iff.1 (Nat.le_zero.1 htag.length_le)
    exact c.tag_not_infix_newline (this ▸ List.nil_infix)
  have hfit : (endedLine t).raw.length ≤ dnsLineSize := by
    rw [endedLine_raw, List.length_append]
    exact hlen
  rw [pieces_raw_of_le hline (by simp) hfit, List.mem_singleton] at hp
  rw [hp, endedLine_raw, dnsLine_append_newline hline hne, cstr_eq_self hnul]
  exact htag.isInfix

theorem fits_append_nameservers (c : ResolvCall) {lineLength : Line → ℕ} {room : ℕ}
    {ls : List Line} {texts : List (List Char)} (htexts : ∀ t ∈ texts, t ∈ c.nameservers)
    (h : Fits c.tag lineLength room ls) :
    Fits c.tag lineLength room (texts.map endedLine ++ ls) := by
  induction texts with
  | nil => exact h
  | cons t texts ih =>
      have hrest := ih fun t' ht' => htexts t' (List.mem_cons_of_mem _ ht')
      have ht := htexts t (List.mem_cons_self ..)
      rw [List.map_cons, List.cons_append, Fits, endedLine_text, if_pos (c.mem_nameservers ht).1]
      exact ⟨Or.inr fun p hp => c.nameserver_dropped ht hp, hrest⟩

/-- Lines that fit with their newlines still fit when they are written back. -/
theorem fits_written {tag : List Char} {room : ℕ} {ls : List Line}
    (h : Fits tag endedLength room ls) :
    Fits tag rawLength room ((untagged tag ls).map endedLine) := by
  induction ls generalizing room with
  | nil => exact trivial
  | cons l ls ih =>
      rw [Fits] at h
      rw [untagged_cons]
      by_cases htag : tag <:+ l.text
      · rw [if_pos htag] at h ⊢
        exact ih h.2
      · rw [if_neg htag] at h ⊢
        rw [List.singleton_append, List.map_cons, Fits, endedLine_text, if_neg htag]
        refine ⟨⟨h.1.1, ?_⟩, ih h.2⟩
        obtain ⟨hlen, hroom⟩ | hlast := h.1.2
        · exact Or.inl ⟨by simpa [rawLength, endedLength] using hlen, hroom⟩
        · exact Or.inr hlast

theorem fits_of_ended {tag : List Char} {room : ℕ} {ls : List Line}
    (h : Fits tag endedLength room ls) : Fits tag rawLength room ls := by
  induction ls generalizing room with
  | nil => exact trivial
  | cons l ls ih =>
      rw [Fits] at h ⊢
      by_cases htag : tag <:+ l.text
      · rw [if_pos htag] at h ⊢
        exact ⟨h.1, ih h.2⟩
      · rw [if_neg htag] at h ⊢
        refine ⟨⟨h.1.1, h.1.2.imp_left fun hshort => ⟨?_, hshort.2⟩⟩, ih h.2⟩
        have hraw : l.raw.length ≤ l.text.length + 1 := by
          obtain ⟨text, ended⟩ := l
          cases ended <;> simp [Line.raw]
        exact hraw.trans hshort.1

theorem untagged_written (c : ResolvCall) (ls : List Line) :
    untagged c.tag ((c.nameservers ++ untagged c.tag ls).map endedLine) = untagged c.tag ls := by
  have htexts : ∀ texts : List (List Char), (texts.map endedLine).map Line.text = texts := by
    intro texts
    rw [List.map_map]
    exact List.map_id _
  rw [untagged, htexts, List.filter_append]
  have hns : c.nameservers.filter (fun t => ¬ c.tag <:+ t) = [] := by
    rw [List.filter_eq_nil_iff]
    intro t ht
    simpa using (c.mem_nameservers ht).1
  rw [hns, List.nil_append, untagged, List.filter_filter]
  simp only [Bool.and_self]

/-- Written back, lines that fit with their newlines come out the same. -/
theorem twice_of_fits {c : ResolvCall} {ls : List Line} (h : IsFile ls)
    (hfits : Fits c.tag endedLength maxDns ls) {new : List Char}
    (hnew : new = (c.nameservers ++ untagged c.tag ls).flatMap (· ++ ['\n'])) :
    (updateResolvConf c new).getD new = new := by
  have hlines : linesOf new = (c.nameservers ++ untagged c.tag ls).map endedLine := by
    rw [hnew, c.linesOf_written h]
  have hagain : Fits c.tag rawLength maxDns (linesOf new) := by
    rw [hlines, List.map_append]
    exact fits_append_nameservers c (fun _ ht => ht) (fits_written hfits)
  cases hsecond : updateResolvConf c new with
  | none => rfl
  | some new' =>
      rw [Option.getD_some, new_of_fits hsecond hagain, hlines, untagged_written, hnew]

/-! ### A newline that does not fit -/

theorem storable_append_nameservers (c : ResolvCall) {ls : List Line} {texts : List (List Char)}
    (htexts : ∀ t ∈ texts, t ∈ c.nameservers) (k : ℕ) :
    storable c.tag (numberedPieces k (texts.map endedLine ++ ls)) =
      storable c.tag (numberedPieces (k + texts.length) ls) := by
  induction texts generalizing k with
  | nil => rfl
  | cons t texts ih =>
      have hrest := ih (fun t' ht' => htexts t' (List.mem_cons_of_mem _ ht')) (k + 1)
      have hdrop : storable c.tag ((pieces dnsLineSize (endedLine t).raw).map (k, ·)) = [] :=
        storable_eq_nil.2 fun p hp => c.nameserver_dropped (htexts t (List.mem_cons_self ..)) hp
      rw [List.map_cons, List.cons_append, numberedPieces_cons, storable_append, hdrop,
        List.nil_append, hrest, List.length_cons, Nat.add_right_comm, Nat.add_assoc]

/-- Where the lines fit as they stand in the file but not with their newlines, the newline of the
last line becomes an entry of its own. -/
theorem fits_ended_or_extra {tag : List Char} (hnl : ¬ tag <:+: ['\n']) {room : ℕ}
    {ls : List Line} (h : IsFile ls) (hfits : Fits tag rawLength room ls) :
    Fits tag endedLength room ls ∨ (untagged tag ls).length < room ∧ ∀ k,
      (storable tag (numberedPieces k ((untagged tag ls).map endedLine))).map Prod.snd =
        untagged tag ls ++ [['\n']] := by
  induction ls generalizing room with
  | nil => exact Or.inl trivial
  | cons l ls ih =>
      rw [Fits] at hfits
      rw [Fits, untagged_cons]
      by_cases htag : tag <:+ l.text
      · rw [if_pos htag] at hfits ⊢
        rw [if_pos htag, List.nil_append]
        exact (ih h.2.2 hfits.2).imp_left fun hrest => ⟨hfits.1, hrest⟩
      · rw [if_neg htag] at hfits ⊢
        rw [if_neg htag, List.singleton_append]
        obtain ⟨⟨⟨hne, hnul, hinfix⟩, hfit⟩, hrest⟩ := hfits
        obtain hlast | hshort | hlong : (l.text.length = dnsLineSize ∧ room = 1) ∨
            (l.text.length < dnsLineSize ∧ 0 < room) ∨
            (l.raw.length ≤ dnsLineSize ∧ l.text.length = dnsLineSize ∧ 1 < room) := by
          obtain ⟨hraw, hroom⟩ | hlast := hfit
          · have hle : l.text.length ≤ l.raw.length := by
              rw [Line.raw, List.length_append]
              exact Nat.le_add_right ..
            have hraw : l.raw.length ≤ dnsLineSize := hraw
            omega
          · exact Or.inl hlast
        · obtain hrest | ⟨hlen, -⟩ := ih h.2.2 hrest
          · exact Or.inl ⟨⟨⟨hne, hnul, hinfix⟩, Or.inr hlast⟩, hrest⟩
          · omega
        · obtain hrest | ⟨hlen, hstored⟩ := ih h.2.2 hrest
          · exact Or.inl ⟨⟨⟨hne, hnul, hinfix⟩, Or.inl hshort⟩, hrest⟩
          · refine Or.inr ⟨by rw [List.length_cons]; omega, fun k => ?_⟩
            have hraw : (endedLine l.text).raw.length ≤ dnsLineSize := by
              rw [endedLine_raw, List.length_append]
              exact hshort.1
            have hline := storable_of_le (k := k) (l := endedLine l.text) h.1 hne hnul hinfix hraw
            rw [List.map_cons, numberedPieces_cons, storable_append, List.map_append, hline,
              hstored]
            rfl
        · -- only the last line can be without a newline
          obtain ⟨hraw, hlen, hroom⟩ := hlong
          have hlast : ls = [] := by
            obtain ⟨text, ended⟩ := l
            obtain ⟨-, hended | ⟨-, hls⟩, -⟩ := h
            · rw [Line.raw, hended, if_pos rfl, List.length_append, List.length_singleton] at hraw
              omega
            · exact hls
          subst hlast
          refine Or.inr ⟨hroom, fun k => ?_⟩
          rw [show untagged tag [] = [] from rfl, List.map_singleton, numberedPieces_cons,
            storable_append, endedLine_raw, storable_of_eq hnl h.1 hnul hinfix hlen]
          rfl

/-- With addresses the same call writes the file again. -/
theorem updateResolvConf_ne_none {c : ResolvCall} (hdns : ¬ (c.dns1 = none ∧ c.dns2 = none))
    (ls : List Line) (texts : List (List Char)) (h : IsFile ls)
    (hlines : ls = (c.nameservers ++ texts).map endedLine) :
    updateResolvConf c (ls.flatMap Line.raw) ≠ none := by
  intro hnone
  rw [updateResolvConf] at hnone
  split at hnone
  · rename_i hcond
    obtain ⟨hdns1, hcount⟩ := hcond
    obtain ⟨d, hdns2⟩ := Option.ne_none_iff_exists'.1 fun hdns2 => hdns ⟨hdns1, hdns2⟩
    have hns : c.nameservers ≠ [] := by
      rw [ResolvCall.nameservers, hdns1, hdns2]
      exact List.cons_ne_nil _ _
    obtain ⟨t, ts, ht⟩ := List.exists_cons_of_ne_nil hns
    have hmem : t ∈ c.nameservers := by
      rw [ht]
      exact List.mem_cons_self ..
    rw [hlines, ht, List.cons_append, List.map_cons] at h hcount
    rw [pieces_eq_flatMap (by decide) h, List.flatMap_cons,
      pieces_eq_cons (by decide) h.raw_ne_nil, List.cons_append, maxDns, readLoop,
      c.dnsTag_eq, if_pos] at hcount
    · cases hcount
    · refine c.nameserver_dropped hmem ?_
      rw [pieces_eq_cons (by decide) h.raw_ne_nil]
      exact List.mem_cons_self ..
  · cases hnone

/-- When the file is written again, a last line whose newline does not fit grows the file. -/
theorem fits_of_twice {c : ResolvCall} (hdns : ¬ (c.dns1 = none ∧ c.dns2 = none))
    {ls : List Line} (h : IsFile ls) (hfits : Fits c.tag rawLength maxDns ls) {new : List Char}
    (hnew : new = (c.nameservers ++ untagged c.tag ls).flatMap (· ++ ['\n']))
    (htwice : (updateResolvConf c new).getD new = new) : Fits c.tag endedLength maxDns ls := by
  obtain hended | ⟨hlen, hstored⟩ := fits_ended_or_extra c.tag_not_infix_newline h hfits
  · exact hended
  have hlines : linesOf new = (c.nameservers ++ untagged c.tag ls).map endedLine := by
    rw [hnew, c.linesOf_written h]
  have hentries : (readLoop c.dnsTag maxDns (pieces dnsLineSize new)).1 =
      untagged c.tag ls ++ [['\n']] := by
    rw [c.dnsTag_eq, readLoop_entries, hlines, readLoopAt_eq, List.map_append,
      storable_append_nameservers c fun _ ht => ht, List.map_take, hstored]
    refine List.take_of_length_le ?_
    rw [List.length_append]
    exact hlen
  have hsome := updateResolvConf_ne_none hdns _ _ (isFile_linesOf new) hlines
  rw [flatMap_raw_linesOf] at hsome
  obtain ⟨new', hsecond⟩ := Option.ne_none_iff_exists'.1 hsome
  rw [hsecond, Option.getD_some] at htwice
  have hnew' := updateResolvConf_cases hsecond
  rw [hentries, ← List.append_assoc, List.flatMap_append, ← hnew, htwice] at hnew'
  exact absurd (congrArg List.length hnew') (by simp)

/-! ### A call without addresses -/

theorem readLoop_count {tag : List Char} {ps : List (List Char)}
    (h : ∀ p ∈ ps, ¬ tag <:+: dnsLine p) (room : ℕ) : (readLoop tag room ps).2 = 0 := by
  induction ps generalizing room with
  | nil => cases room <;> rfl
  | cons p ps ih =>
      cases room with
      | zero => rfl
      | succ room =>
          rw [readLoop, if_neg (h p (List.mem_cons_self ..))]
          exact ih (fun q hq => h q (List.mem_cons_of_mem _ hq)) room

theorem plain_of_mem_untagged {tag : List Char} {room : ℕ} {ls : List Line}
    (hfits : Fits tag rawLength room ls) {t : List Char} (ht : t ∈ untagged tag ls) :
    t ≠ [] ∧ nul ∉ t ∧ ¬ tag <:+: t ∧ t.length ≤ dnsLineSize := by
  induction ls generalizing room with
  | nil => cases ht
  | cons l ls ih =>
      rw [Fits] at hfits
      rw [untagged_cons] at ht
      by_cases htag : tag <:+ l.text
      · rw [if_pos htag] at hfits ht
        exact ih hfits.2 ht
      · rw [if_neg htag] at hfits ht
        obtain rfl | ht := List.mem_cons.1 ht
        · obtain ⟨⟨hne, hnul, hinfix⟩, hfit⟩ := hfits.1
          refine ⟨hne, hnul, hinfix, ?_⟩
          obtain ⟨hraw, -⟩ | ⟨hlen, -⟩ := hfit
          · have hle : l.text.length ≤ l.raw.length := by
              rw [Line.raw, List.length_append]
              exact Nat.le_add_right ..
            exact hle.trans hraw
          · exact Nat.le_of_eq hlen
        · exact ih hfits.2 ht

/-- No piece of a kept line shows the tag when it is read again. -/
theorem piece_untagged {tag : List Char} (hnl : ¬ tag <:+: ['\n']) {t : List Char}
    (hline : '\n' ∉ t) (hne : t ≠ []) (hnul : nul ∉ t) (htag : ¬ tag <:+: t)
    (hlen : t.length ≤ dnsLineSize) {p : List Char}
    (hp : p ∈ pieces dnsLineSize (endedLine t).raw) : ¬ tag <:+: dnsLine p := by
  obtain hlt | heq := Nat.lt_or_eq_of_le hlen
  · have hfit : (endedLine t).raw.length ≤ dnsLineSize := by
      rw [endedLine_raw, List.length_append]
      exact hlt
    rw [pieces_raw_of_le hline (by simp) hfit, List.mem_singleton] at hp
    rwa [hp, endedLine_raw, dnsLine_append_newline hline hne, cstr_eq_self hnul]
  · rw [endedLine_raw, pieces_raw_of_eq (by decide) hline heq] at hp
    obtain rfl | hp := List.mem_cons.1 hp
    · rwa [dnsLine_of_not_mem hline, cstr_eq_self hnul]
    · rw [List.mem_singleton.1 hp, dnsLine_newline]
      exact hnl

theorem twice_of_no_dns {c : ResolvCall} (hdns : c.dns1 = none ∧ c.dns2 = none) {ls : List Line}
    (h : IsFile ls) (hfits : Fits c.tag rawLength maxDns ls) {new : List Char}
    (hnew : new = (c.nameservers ++ untagged c.tag ls).flatMap (· ++ ['\n'])) :
    (updateResolvConf c new).getD new = new := by
  have hns : c.nameservers = [] := by
    rw [ResolvCall.nameservers, hdns.1, hdns.2]
    rfl
  have hfile := linesOf_flatMap_raw (isFile_map_ended (@newline_not_mem_untagged c.tag _ h))
  have hpieces : ∀ p ∈ pieces dnsLineSize new, ¬ c.dnsTag <:+: dnsLine p := by
    intro p hp
    rw [hns, List.nil_append] at hnew
    have hnew : new = ((untagged c.tag ls).map endedLine).flatMap Line.raw := by
      rw [hnew, List.flatMap_map]
      rfl
    rw [hnew, pieces_eq_flatMap (by decide)
      (isFile_map_ended (newline_not_mem_untagged h))] at hp
    obtain ⟨l, hl, hp⟩ := List.mem_flatMap.1 hp
    obtain ⟨t, ht, rfl⟩ := List.mem_map.1 hl
    obtain ⟨hne, hnul, hinfix, hlen⟩ := plain_of_mem_untagged hfits ht
    rw [c.dnsTag_eq]
    exact piece_untagged c.tag_not_infix_newline (newline_not_mem_untagged h t ht) hne hnul
      hinfix hlen hp
  have hnone : updateResolvConf c new = none := if_pos ⟨hdns.1, readLoop_count hpieces _⟩
  rw [hnone]
  rfl

/-! ### The law holds on the files that fit -/

/-- A call keeps the frame of the file it writes exactly when the lines of the old file fit. -/
theorem updateResolvConf_frame_iff (c : ResolvCall) (content new : List Char)
    (h : updateResolvConf c content = some new) :
    FrameLaw c content new ↔ Fits c.tag c.lineLength maxDns (linesOf content) := by
  have hfile := isFile_linesOf content
  have hkept := written_iff c.tag_not_infix_newline hfile maxDns 0
  rw [← readLoopAt_eq] at hkept
  constructor
  · rintro ⟨hlaw, -, htwice⟩
    rw [c.dnsTag_eq] at hlaw
    have honce := hkept.1 hlaw
    -- A call without name servers adds nothing to its own output; with them it reads its lines
    -- again, each with a newline by then.
    by_cases hdns : c.dns1 = none ∧ c.dns2 = none
    · rwa [ResolvCall.lineLength, if_pos hdns]
    · rw [ResolvCall.lineLength, if_neg hdns]
      exact fits_of_twice hdns hfile honce (new_of_fits h honce) htwice
  · intro hfits
    have honce : Fits c.tag rawLength maxDns (linesOf content) := by
      rw [ResolvCall.lineLength] at hfits
      split at hfits
      · exact hfits
      · exact fits_of_ended hfits
    have hnew := new_of_fits h honce
    refine ⟨by rw [c.dnsTag_eq]; exact hkept.2 honce, ?_, ?_⟩
    · rw [hnew, c.linesOf_written hfile, List.map_map]
      exact List.map_id _
    · by_cases hdns : c.dns1 = none ∧ c.dns2 = none
      · exact twice_of_no_dns hdns hfile honce hnew
      · rw [ResolvCall.lineLength, if_neg hdns] at hfits
        exact twice_of_fits hfile hfits hnew

/-- The call `update_resolv_conf(4, "wwan0", "1.1.1.1", "1.1.1.1")`. -/
def exampleCall : ResolvCall where
  iptype := 4
  ifname := "wwan0".toList
  dns1 := some "1.1.1.1".toList
  dns2 := some "1.1.1.1".toList
  family := Or.inl rfl
  ifname_length := by decide
  ifname_plain := by decide
  dns_plain := by decide

/-- The law on a file with a line of somebody else and an old line of the call. -/
theorem updateResolvConf_frame_example :
    FrameLaw exampleCall "search lan\nnameserver 9.9.9.9 # IPV4 wwan0\n".toList
        "nameserver 1.1.1.1 # IPV4 wwan0\nnameserver 1.1.1.1 # IPV4 wwan0\nsearch lan\n".toList ↔
      Fits exampleCall.tag exampleCall.lineLength maxDns
        (linesOf "search lan\nnameserver 9.9.9.9 # IPV4 wwan0\n".toList) :=
  updateResolvConf_frame_iff exampleCall _ _ (by decide +kernel)

/-- The lines of `wwan0.1` are lost when the name servers of `wwan0` are written. -/
theorem updateResolvConf_drops_vlan :
    ¬ ∀ (c : ResolvCall) (content new : List Char), updateResolvConf c content = some new →
      FrameLaw c content new := by
  intro hall
  have hlaw := hall exampleCall "nameserver 9.9.9.9 # IPV4 wwan0.1\n".toList
    "nameserver 1.1.1.1 # IPV4 wwan0\nnameserver 1.1.1.1 # IPV4 wwan0\n".toList (by decide +kernel)
  exact absurd hlaw.lines (by decide +kernel)

end QuectelCM
