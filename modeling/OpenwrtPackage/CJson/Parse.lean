/-
**The JSON parser.**

`ser2mqtt` takes its commands out of JSON texts that anybody can send.  The parser goes through a
buffer of bytes of known length, and keeps a count of the arrays and objects that it is in, of which
there may be 1000.  Here it is a function of what of the buffer is still to be read.

* `CJson.Json` — the values;
* `CJson.parseNumber`, `CJson.parseArray`, `CJson.parseObject`, `CJson.parseValue` — the functions,
  where `double` is what `strtod` makes of the bytes that it takes;
* `CJson.cJSONParseWithLength`, `CJson.cJSONParse` — the parser;
* `CJson.cJSONGetObjectItem` — a member of an object;
* `CJson.parseValue_safe` — a value is read from the front of the buffer;
* `CJson.cJSONParseWithLength_safe` — **whatever is in the buffer, the parser ends and reads nothing
  outside it, and what it makes of the buffer is nested 1000 deep at most**.
-/
import OpenwrtPackage.CJson.Literal

set_option relaxedAutoImplicit false
set_option autoImplicit false

namespace CJson

/-! ### Values -/

/-- What a `cJSON` item stands for.  The children of an array have no name. -/
inductive Json (ν : Type) where
  | null
  | false
  | true
  | number (valuedouble : ν)
  | string (valuestring : List UInt8)
  | array (children : List (Json ν))
  | object (children : List (List UInt8 × Json ν))

/-- What comes after a part that has been read. -/
def Parsed.andThen {α β : Type} (p : Parsed α) (next : α → List UInt8 → Parsed β) : Parsed β :=
  match p with
  | .ok value rest => next value rest
  | .fail => .fail
  | .outside => .outside
  | .endless => .endless

/-! ### Blanks -/

/-- `buffer_skip_whitespace`: at the end of the buffer it goes back to the last byte. -/
def skipWhitespace (s : List UInt8) : List UInt8 :=
  match s with
  | [] => []
  | b :: s =>
      match (b :: s).dropWhile (· ≤ 32) with
      | [] => (b :: s).drop s.length
      | rest => rest

/-- `skip_utf8_bom`. -/
def skipUtf8Bom (s : List UInt8) : List UInt8 :=
  if 4 < s.length ∧ s.take 3 = [0xEF, 0xBB, 0xBF] then s.drop 3 else s

/-! ### Numbers -/

def isDigit (b : UInt8) : Bool := 0x30 ≤ b && b ≤ 0x39

/-- `+` or `-`. -/
def isSign (b : UInt8) : Bool := b == 0x2B || b == 0x2D

/-- What `parse_number` copies: a digit, a sign, `e`, `E` or a point. -/
def isNumberByte (b : UInt8) : Bool :=
  isDigit b || isSign b || b == 0x65 || b == 0x45 || b == 0x2E

/-- The digits of an exponent, with the letter in front of them. -/
def exponentLength (s : List UInt8) : ℕ :=
  match s with
  | [] => 0
  | e :: s =>
      if e = 0x65 ∨ e = 0x45 then
        let sign := (s.takeWhile isSign).take 1
        let digits := (s.drop sign.length).takeWhile isDigit
        if digits = [] then 0 else 1 + sign.length + digits.length
      else 0

/-- A point and the digits behind it. -/
def fractionLength (s : List UInt8) : ℕ :=
  match s with
  | [] => 0
  | p :: s => if p = 0x2E then 1 + (s.takeWhile isDigit).length else 0

/-- How many bytes `strtod` takes of a string of such bytes: a sign, digits with or without a point
among them, and an exponent if it has digits. -/
def strtodLength (s : List UInt8) : ℕ :=
  let sign := ((s.takeWhile isSign).take 1).length
  let whole := ((s.drop sign).takeWhile isDigit).length
  let fraction := fractionLength (s.drop (sign + whole))
  if whole + (fraction - 1) = 0 then 0
  else sign + whole + fraction + exponentLength (s.drop (sign + whole + fraction))

/-- `parse_number`: 63 bytes are copied at most. -/
def parseNumber {ν : Type} (double : List UInt8 → ν) (s : List UInt8) : Parsed (Json ν) :=
  let numberCString := (s.take 63).takeWhile isNumberByte
  let length := strtodLength numberCString
  if length = 0 then .fail else .ok (.number (double (numberCString.take length))) (s.drop length)

/-! ### Arrays and objects -/

section Children

variable {α : Type} (parse : List UInt8 → Parsed α)

/-- The loop of `parse_array`, behind the bracket or a comma. -/
def parseElements : ℕ → List UInt8 → Parsed (List α)
  | 0, _ => .endless
  | fuel + 1, s =>
      (parse (skipWhitespace s)).andThen fun value s =>
        match skipWhitespace s with
        | [] => .fail
        | b :: s =>
            if b = 0x2C then
              (parseElements fuel s).andThen fun values rest => .ok (value :: values) rest
            else if b = 0x5D then .ok [value] s
            else .fail

/-- `parse_array`, where one more array may be entered. -/
def parseArray (s : List UInt8) : Parsed (List α) :=
  match s with
  | [] => .outside
  | b :: s =>
      if b ≠ 0x5B then .fail
      else
        match skipWhitespace s with
        | [] => .fail
        | b :: s =>
            if b = 0x5D then .ok [] s else parseElements parse ((b :: s).length + 1) (b :: s)

/-- The loop of `parse_object`, behind the brace or a comma: nothing may be missing there. -/
def parseMembers : ℕ → List UInt8 → Parsed (List (List UInt8 × α))
  | 0, _ => .endless
  | fuel + 1, s =>
      if s = [] then .fail
      else
        (parseString (skipWhitespace s)).andThen fun name s =>
          match skipWhitespace s with
          | [] => .fail
          | b :: s =>
              if b ≠ 0x3A then .fail
              else
                (parse (skipWhitespace s)).andThen fun value s =>
                  match skipWhitespace s with
                  | [] => .fail
                  | b :: s =>
                      if b = 0x2C then
                        (parseMembers fuel s).andThen fun members rest =>
                          .ok ((name, value) :: members) rest
                      else if b = 0x7D then .ok [(name, value)] s
                      else .fail

/-- `parse_object`, where one more object may be entered. -/
def parseObject (s : List UInt8) : Parsed (List (List UInt8 × α)) :=
  match s with
  | [] => .fail
  | b :: s =>
      if b ≠ 0x7B then .fail
      else
        match skipWhitespace s with
        | [] => .fail
        | b :: s =>
            if b = 0x7D then .ok [] s else parseMembers parse ((b :: s).length + 1) (b :: s)

end Children

/-! ### The parser -/

variable {ν : Type} (double : List UInt8 → ν)

/-- The cases of `parse_value`, with what is done for an array and for an object. -/
def parseCases (array object : List UInt8 → Parsed (Json ν)) (s : List UInt8) : Parsed (Json ν) :=
  if s.take 4 = [0x6E, 0x75, 0x6C, 0x6C] then .ok .null (s.drop 4)
  else if s.take 5 = [0x66, 0x61, 0x6C, 0x73, 0x65] then .ok .false (s.drop 5)
  else if s.take 4 = [0x74, 0x72, 0x75, 0x65] then .ok .true (s.drop 4)
  else
    match s with
    | [] => .fail
    | b :: _ =>
        if b = quote then (parseString s).andThen fun text rest => .ok (.string text) rest
        else if b = 0x2D ∨ isDigit b then parseNumber double s
        else if b = 0x5B then array s
        else if b = 0x7B then object s
        else .fail

/-- `parse_value`, where so many arrays and objects may still be entered: `CJSON_NESTING_LIMIT` less
the `depth` of the buffer. -/
def parseValue : ℕ → List UInt8 → Parsed (Json ν)
  | 0 => parseCases double (fun _ => .fail) fun _ => .fail
  | depth + 1 =>
      parseCases double
        (fun s => (parseArray (parseValue depth) s).andThen fun values rest =>
          .ok (.array values) rest)
        fun s => (parseObject (parseValue depth) s).andThen fun members rest =>
          .ok (.object members) rest

/-- A brace is the beginning of an object. -/
theorem parseValue_brace (depth : ℕ) (s : List UInt8) :
    parseValue double (depth + 1) (0x7B :: s) =
      (parseObject (parseValue double depth) (0x7B :: s)).andThen fun members rest =>
        .ok (.object members) rest := by
  simp [parseValue, parseCases, quote, isDigit]

/-- A quote is the beginning of a string. -/
theorem parseValue_quote (depth : ℕ) (s : List UInt8) :
    parseValue double depth (quote :: s) =
      (parseString (quote :: s)).andThen fun text rest => .ok (.string text) rest := by
  cases depth <;> simp [parseValue, parseCases, quote]

/-- `CJSON_NESTING_LIMIT`. -/
def nestingLimit : ℕ := 1000

/-- `cJSON_ParseWithLength`; the text may go on behind the value. -/
def cJSONParseWithLength (buffer : List UInt8) : Parsed (Json ν) :=
  if buffer = [] then .fail
  else parseValue double nestingLimit (skipWhitespace (skipUtf8Bom buffer))

/-- `cJSON_Parse`, for the string in some memory: the NUL behind it is part of the buffer. -/
def cJSONParse (mem : List UInt8) : Parsed (Json ν) := cJSONParseWithLength double (cstr mem ++ [0])

/-! ### Members -/

/-- `tolower`. -/
def tolower (b : UInt8) : UInt8 := if 0x41 ≤ b ∧ b ≤ 0x5A then b + 0x20 else b

/-- `case_insensitive_strcmp` for two strings; the NUL behind a string is 0. -/
def caseInsensitiveStrcmp : List UInt8 → List UInt8 → ℤ
  | [], [] => 0
  | [], b :: _ => -(tolower b).toNat
  | a :: _, [] => (tolower a).toNat
  | a :: s, b :: t =>
      if tolower a = tolower b then caseInsensitiveStrcmp s t
      else (tolower a).toNat - (tolower b).toNat

/-- `cJSON_GetObjectItem`: the first member with the name, in whatever case; what is no object has
no members with names. -/
def cJSONGetObjectItem (item : Json ν) (name : List UInt8) : Option (Json ν) :=
  match item with
  | .object children =>
      (children.find? fun child => decide (caseInsensitiveStrcmp name child.1 = 0)).map (·.2)
  | _ => none

/-! ### The parser stays in the buffer -/

/-- A failure, or a value with the property, behind which less than `n` bytes are left. -/
inductive Parsed.Safe {α : Type} (P : α → Prop) (n : ℕ) : Parsed α → Prop
  | ok {value : α} {rest : List UInt8} (hvalue : P value) (hrest : rest.length < n) :
      Parsed.Safe P n (.ok value rest)
  | fail : Parsed.Safe P n .fail

theorem Parsed.Safe.andThen {α β : Type} {P : α → Prop} {Q : β → Prop} {n m : ℕ} {p : Parsed α}
    {next : α → List UInt8 → Parsed β} (hp : p.Safe P n)
    (hnext : ∀ value rest, P value → rest.length < n → (next value rest).Safe Q m) :
    (p.andThen next).Safe Q m := by
  cases hp with
  | ok hvalue hrest => exact hnext _ _ hvalue hrest
  | fail => exact Safe.fail

theorem Parsed.Safe.mono {α : Type} {P : α → Prop} {n m : ℕ} {p : Parsed α} (hp : p.Safe P n)
    (hnm : n ≤ m) : p.Safe P m := by
  cases hp with
  | ok hvalue hrest => exact Safe.ok hvalue (Nat.lt_of_lt_of_le hrest hnm)
  | fail => exact Safe.fail

/-- There is something to read behind the blanks if there was in front of them. -/
theorem skipWhitespace_spec (s : List UInt8) :
    (skipWhitespace s).length ≤ s.length ∧ (s ≠ [] → skipWhitespace s ≠ []) := by
  cases s with
  | nil => exact ⟨Nat.le_refl _, id⟩
  | cons b s =>
      rw [skipWhitespace]
      split
      · constructor
        · rw [List.length_drop]
          omega
        · intro _ h
          have hlen := congrArg List.length h
          rw [List.length_drop, List.length_cons, List.length_nil] at hlen
          omega
      · next hne =>
          refine ⟨?_, fun _ => hne⟩
          exact (List.dropWhile_sublist _).length_le

theorem strtodLength_le (s : List UInt8) : strtodLength s ≤ s.length := by
  have hsign : ∀ t : List UInt8, ((t.takeWhile isSign).take 1).length ≤ t.length := fun t =>
    Nat.le_trans (List.length_take_le' _ _) (List.takeWhile_sublist _).length_le
  have hdigits : ∀ t : List UInt8, (t.takeWhile isDigit).length ≤ t.length := fun t =>
    (List.takeWhile_sublist _).length_le
  have hfraction : ∀ t : List UInt8, fractionLength t ≤ t.length := by
    intro t
    cases t with
    | nil => exact Nat.le_refl _
    | cons p t =>
        have hle := hdigits t
        rw [fractionLength, List.length_cons]
        split <;> omega
  have hexponent : ∀ t : List UInt8, exponentLength t ≤ t.length := by
    intro t
    cases t with
    | nil => exact Nat.le_refl _
    | cons e t =>
        rw [exponentLength, List.length_cons]
        split
        · have hle := hsign t
          have hle' := hdigits (t.drop ((t.takeWhile isSign).take 1).length)
          rw [List.length_drop] at hle'
          dsimp only
          split <;> omega
        · exact Nat.zero_le _
  unfold strtodLength
  dsimp only
  have h1 := hsign s
  have h2 := hdigits (s.drop ((s.takeWhile isSign).take 1).length)
  generalize ((s.takeWhile isSign).take 1).length = sign at h1 h2 ⊢
  generalize ((s.drop sign).takeWhile isDigit).length = whole at h2 ⊢
  have h3 := hfraction (s.drop (sign + whole))
  generalize fractionLength (s.drop (sign + whole)) = fraction at h3 ⊢
  have h4 := hexponent (s.drop (sign + whole + fraction))
  rw [List.length_drop] at h2 h3 h4
  split <;> omega

theorem parseString_safe' {s : List UInt8} (hs : s ≠ []) :
    (parseString s).Safe (fun _ => True) s.length := by
  rcases parseString_safe hs with h | ⟨text, rest, h, hlen⟩
  · rw [h]
    exact Parsed.Safe.fail
  · rw [h]
    exact Parsed.Safe.ok trivial hlen

theorem parseNumber_safe {P : Json ν → Prop} (hP : ∀ d, P (.number d)) (s : List UInt8) :
    (parseNumber double s).Safe P s.length := by
  unfold parseNumber
  dsimp only
  split
  · exact Parsed.Safe.fail
  · next hlength =>
      have hle := strtodLength_le ((s.take 63).takeWhile isNumberByte)
      have hcopy : ((s.take 63).takeWhile isNumberByte).length ≤ s.length :=
        Nat.le_trans (List.takeWhile_sublist _).length_le (List.take_sublist _ _).length_le
      refine Parsed.Safe.ok (hP _) ?_
      rw [List.length_drop]
      omega

section Children

variable {α : Type} {parse : List UInt8 → Parsed α} {P : α → Prop}

/-- The parser of the children is safe wherever it begins. -/
theorem parseElements_safe (hparse : ∀ s, (parse s).Safe P s.length) {fuel : ℕ} {s : List UInt8}
    (hfuel : s.length < fuel) :
    (parseElements parse fuel s).Safe (fun values => ∀ v ∈ values, P v) s.length := by
  induction fuel generalizing s with
  | zero => exact absurd hfuel (Nat.not_lt_zero _)
  | succ fuel ih =>
      rw [parseElements]
      refine (hparse _).andThen fun value s' hvalue hs' => ?_
      have hfirst := (skipWhitespace_spec s).1
      have hsecond := (skipWhitespace_spec s').1
      split
      · exact Parsed.Safe.fail
      · next b rest hrest =>
          rw [hrest, List.length_cons] at hsecond
          split
          · refine (ih (s := rest) (by omega)).andThen fun values rest' hvalues hrest' => ?_
            exact Parsed.Safe.ok (List.forall_mem_cons.2 ⟨hvalue, hvalues⟩) (by omega)
          · split
            · exact Parsed.Safe.ok (List.forall_mem_singleton.2 hvalue) (by omega)
            · exact Parsed.Safe.fail

theorem parseArray_safe (hparse : ∀ s, (parse s).Safe P s.length) {s : List UInt8} (hs : s ≠ []) :
    (parseArray parse s).Safe (fun values => ∀ v ∈ values, P v) s.length := by
  cases s with
  | nil => exact absurd rfl hs
  | cons b s =>
      have hskip := (skipWhitespace_spec s).1
      rw [parseArray, List.length_cons]
      split
      · exact Parsed.Safe.fail
      · split
        · exact Parsed.Safe.fail
        · next c rest hrest =>
            rw [hrest, List.length_cons] at hskip
            split
            · exact Parsed.Safe.ok (fun _ h => absurd h List.not_mem_nil) (by omega)
            · refine (parseElements_safe hparse (Nat.lt_succ_self _)).mono ?_
              rw [List.length_cons]
              omega

theorem parseMembers_safe (hparse : ∀ s, (parse s).Safe P s.length) {fuel : ℕ} {s : List UInt8}
    (hfuel : s.length < fuel) :
    (parseMembers parse fuel s).Safe (fun members => ∀ m ∈ members, P m.2) s.length := by
  induction fuel generalizing s with
  | zero => exact absurd hfuel (Nat.not_lt_zero _)
  | succ fuel ih =>
      rw [parseMembers]
      split
      · exact Parsed.Safe.fail
      · next hs =>
          obtain ⟨hbegin, hne⟩ := skipWhitespace_spec s
          refine (parseString_safe' (hne hs)).andThen fun name s₁ _ hs₁ => ?_
          have hcolon := (skipWhitespace_spec s₁).1
          split
          · exact Parsed.Safe.fail
          · next b s₂ hs₂ =>
              rw [hs₂, List.length_cons] at hcolon
              have hspace := (skipWhitespace_spec s₂).1
              split
              · exact Parsed.Safe.fail
              · refine (hparse _).andThen fun value s₃ hvalue hs₃ => ?_
                have hend := (skipWhitespace_spec s₃).1
                split
                · exact Parsed.Safe.fail
                · next c rest hrest =>
                    rw [hrest, List.length_cons] at hend
                    split
                    · refine (ih (s := rest) (by omega)).andThen fun members rest' hmembers _ => ?_
                      exact Parsed.Safe.ok (List.forall_mem_cons.2 ⟨hvalue, hmembers⟩) (by omega)
                    · split
                      · exact Parsed.Safe.ok (List.forall_mem_singleton.2 hvalue) (by omega)
                      · exact Parsed.Safe.fail

theorem parseObject_safe (hparse : ∀ s, (parse s).Safe P s.length) (s : List UInt8) :
    (parseObject parse s).Safe (fun members => ∀ m ∈ members, P m.2) s.length := by
  cases s with
  | nil => exact Parsed.Safe.fail
  | cons b s =>
      have hskip := (skipWhitespace_spec s).1
      rw [parseObject, List.length_cons]
      split
      · exact Parsed.Safe.fail
      · split
        · exact Parsed.Safe.fail
        · next c rest hrest =>
            rw [hrest, List.length_cons] at hskip
            split
            · exact Parsed.Safe.ok (fun _ h => absurd h List.not_mem_nil) (by omega)
            · refine (parseMembers_safe hparse (Nat.lt_succ_self _)).mono ?_
              rw [List.length_cons]
              omega

end Children

/-- Arrays and objects are nested `n` deep at most. -/
inductive Json.Nests {ν : Type} : ℕ → Json ν → Prop
  | null (n : ℕ) : Json.Nests n .null
  | false (n : ℕ) : Json.Nests n .false
  | true (n : ℕ) : Json.Nests n .true
  | number (n : ℕ) (d : ν) : Json.Nests n (.number d)
  | string (n : ℕ) (text : List UInt8) : Json.Nests n (.string text)
  | array {n : ℕ} {children : List (Json ν)} (h : ∀ c ∈ children, Json.Nests n c) :
      Json.Nests (n + 1) (.array children)
  | object {n : ℕ} {children : List (List UInt8 × Json ν)}
      (h : ∀ c ∈ children, Json.Nests n c.2) : Json.Nests (n + 1) (.object children)

theorem parseCases_safe {n : ℕ} {array object : List UInt8 → Parsed (Json ν)} {s : List UInt8}
    (harray : s ≠ [] → (array s).Safe (Json.Nests n) s.length)
    (hobject : s ≠ [] → (object s).Safe (Json.Nests n) s.length) :
    (parseCases double array object s).Safe (Json.Nests n) s.length := by
  have hword : ∀ {k : ℕ} {word : List UInt8} {v : Json ν}, s.take k = word → 0 < k → word ≠ [] →
      Json.Nests n v → (Parsed.ok v (s.drop k)).Safe (Json.Nests n) s.length := by
    intro k word v htake hk hne hv
    refine Parsed.Safe.ok hv ?_
    have hs : s ≠ [] := by
      rintro rfl
      exact hne (by rw [← htake, List.take_nil])
    have hpos := List.length_pos_iff.2 hs
    rw [List.length_drop]
    omega
  unfold parseCases
  split
  · next h => exact hword h (by decide) (List.cons_ne_nil _ _) (Json.Nests.null n)
  · split
    · next h => exact hword h (by decide) (List.cons_ne_nil _ _) (Json.Nests.false n)
    · split
      · next h => exact hword h (by decide) (List.cons_ne_nil _ _) (Json.Nests.true n)
      · cases s with
        | nil => exact Parsed.Safe.fail
        | cons b rest =>
            have hne : b :: rest ≠ [] := List.cons_ne_nil _ _
            dsimp only
            split
            · refine (parseString_safe' hne).andThen fun text rest' _ hrest => ?_
              exact Parsed.Safe.ok (Json.Nests.string n text) hrest
            · split
              · exact parseNumber_safe double (Json.Nests.number n) _
              · split
                · exact harray hne
                · split
                  · exact hobject hne
                  · exact Parsed.Safe.fail

/-- **A value is read from the front of the buffer, and nothing outside it; and it is nested no
deeper than may be entered.** -/
theorem parseValue_safe (depth : ℕ) (s : List UInt8) :
    (parseValue double depth s).Safe (Json.Nests depth) s.length := by
  induction depth generalizing s with
  | zero => exact parseCases_safe double (fun _ => Parsed.Safe.fail) fun _ => Parsed.Safe.fail
  | succ depth ih =>
      refine parseCases_safe double (fun hs => ?_) fun _ => ?_
      · exact (parseArray_safe ih hs).andThen fun values rest hvalues hrest =>
          Parsed.Safe.ok (Json.Nests.array hvalues) hrest
      · exact (parseObject_safe ih s).andThen fun members rest hmembers hrest =>
          Parsed.Safe.ok (Json.Nests.object hmembers) hrest

/-- **Whatever is in the buffer, the parser fails or makes a value of it**, reading nothing outside
the buffer on the way; and the value is nested 1000 deep at most. -/
theorem cJSONParseWithLength_safe (buffer : List UInt8) :
    cJSONParseWithLength double buffer = .fail ∨
      ∃ value rest, cJSONParseWithLength double buffer = .ok value rest ∧
        rest.length < buffer.length ∧ value.Nests nestingLimit := by
  unfold cJSONParseWithLength
  split
  · exact Or.inl rfl
  · have hbom : (skipUtf8Bom buffer).length ≤ buffer.length := by
      unfold skipUtf8Bom
      split
      · exact (List.drop_sublist _ _).length_le
      · exact Nat.le_refl _
    have hskip := (skipWhitespace_spec (skipUtf8Bom buffer)).1
    have hsafe := parseValue_safe double nestingLimit (skipWhitespace (skipUtf8Bom buffer))
    generalize parseValue double nestingLimit (skipWhitespace (skipUtf8Bom buffer)) = p at hsafe ⊢
    cases hsafe with
    | fail => exact Or.inl rfl
    | ok hvalue hrest => exact Or.inr ⟨_, _, rfl, by omega, hvalue⟩

end CJson
