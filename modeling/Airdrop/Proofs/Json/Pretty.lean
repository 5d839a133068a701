import Airdrop.Proofs.Json.Scalar
import Airdrop.Proofs.Value

/-!
# Documents are read back

* `Value.Plain depth v` : a value that a document can hold, nested at most `depth` levels deep.
* `Rereads strict depth v` : wherever the text of a value stands, it is read as this value.
* `elements_pretty`, `members_pretty` : the items of a list and the fields of an object, given that each is reread.
* `rereads_of_plain` : plain values are reread, by induction on how they are put together. `read_pretty` : whole texts.

A text of `n` characters needs fuel `n`: every call but the first stands behind a character that another one has read.
-/

namespace Airdrop

/-- Byte strings have no JSON form, long integers and torn texts are refused by readers, and floating-point numbers are
left out. The fields of an object have different names: of two with one name the reader would keep one. -/
inductive Value.Plain : (depth : Nat) → Value → Prop
  | null {depth : Nat} : Plain depth .null
  | bool {depth : Nat} (b : Bool) : Plain depth (.bool b)
  | int {depth : Nat} {n : Int} (h : Radix.isLong n = false) : Plain depth (.int n)
  | text {depth : Nat} (s : String) : Plain depth (.text s)
  | list {depth : Nat} {vs : List Value} (h : ∀ v ∈ vs, Plain depth v) : Plain (depth + 1) (.list vs)
  | object {depth : Nat} {fs : List (String × Value)} (hnames : (fs.map (·.1)).Nodup) (h : ∀ f ∈ fs, Plain depth f.2) :
      Plain (depth + 1) (.object fs)

theorem Value.Plain.mono {depth deeper : Nat} {v : Value} (h : Plain depth v) (hle : depth ≤ deeper) :
    Plain deeper v := by
  induction h generalizing deeper with
  | null => exact .null
  | bool b => exact .bool b
  | int h => exact .int h
  | text s => exact .text s
  | list _ ih =>
    obtain ⟨deeper, rfl⟩ : ∃ n, deeper = n + 1 := ⟨deeper - 1, by omega⟩
    exact .list fun v hv => ih v hv (by omega)
  | object hnames _ ih =>
    obtain ⟨deeper, rfl⟩ : ∃ n, deeper = n + 1 := ⟨deeper - 1, by omega⟩
    exact .object hnames fun f hf => ih f hf (by omega)

/-- A plain value can be written. -/
theorem Value.Plain.isWritable {depth : Nat} {v : Value} (h : Plain depth v) : v.isWritable = true := by
  induction h with
  | null => rfl
  | bool b => rfl
  | int h => simp [h]
  | text s => rfl
  | list _ ih => simpa using ih
  | object _ _ ih => simpa using ih

theorem RawText.plain_toValue {s : RawText} (h : s.isWhole = true) {depth : Nat} : s.toValue.Plain depth := by
  cases s with
  | whole s => exact .text s
  | torn t => exact nomatch h

namespace Json

variable {strict : Bool}

/-! ## Blanks -/

theorem skipBlanks_newline (level : Nat) (cs : List Char) : skipBlanks (newline level ++ cs) = skipBlanks cs := by
  unfold skipBlanks newline
  rw [List.cons_append, List.dropWhile_cons_of_pos (by decide)]
  induction 2 * level with
  | zero => rfl
  | succ n ih => rw [List.replicate_succ, List.cons_append, List.dropWhile_cons_of_pos (by decide), ih]

theorem value_newline (fuel depth level : Nat) (cs : List Char) :
    value strict fuel depth (newline level ++ cs) = value strict fuel depth cs := by
  cases fuel with
  | zero => rfl
  | succ fuel => rw [value, value, skipBlanks_newline]

theorem value_space (fuel depth : Nat) (cs : List Char) :
    value strict fuel depth (' ' :: cs) = value strict fuel depth cs := by
  cases fuel with
  | zero => rfl
  | succ fuel => rw [value, value, show skipBlanks (' ' :: cs) = skipBlanks cs from rfl]

theorem elements_newline (fuel depth level : Nat) (cs : List Char) :
    elements strict fuel depth (newline level ++ cs) = elements strict fuel depth cs := by
  cases fuel with
  | zero => rfl
  | succ fuel => rw [elements, elements, value_newline]

theorem members_newline (fuel depth level : Nat) (fs : List (String × Value)) (cs : List Char) :
    members strict fuel depth fs (newline level ++ cs) = members strict fuel depth fs cs := by
  cases fuel with
  | zero => rfl
  | succ fuel => rw [members, members, skipBlanks_newline]

theorem stops_nil : Stops [] := fun _ hc => nomatch hc

theorem stops_comma (cs : List Char) : Stops (',' :: cs) := by
  rintro c ⟨⟩
  decide

theorem stops_newline (level : Nat) (cs : List Char) : Stops (newline level ++ cs) := by
  rintro c ⟨⟩
  decide

/-! ## One step of a list or an object -/

section
variable {fuel depth : Nat} {cs next rest after : List Char} {v : Value} {vs : List Value}
  {fields all : List (String × Value)} {name : String}

theorem value_list (hopen : skipBlanks cs = next) (hhead : next.head? ≠ some ']')
    (hvs : elements strict fuel depth next = .ok (vs, after)) :
    value strict (fuel + 1) (depth + 1) ('[' :: cs) = .ok (.list vs, after) := by
  rw [value]
  simp only [show skipBlanks ('[' :: cs) = '[' :: cs from rfl, hopen]
  split
  · exact absurd rfl hhead
  · rw [hvs]
    rfl

theorem value_object (hopen : skipBlanks cs = '"' :: next)
    (hall : members strict fuel depth [] ('"' :: next) = .ok (all, after)) :
    value strict (fuel + 1) (depth + 1) ('\x7b' :: cs) = .ok (.object all, after) := by
  rw [value]
  simp only [show skipBlanks ('\x7b' :: cs) = '\x7b' :: cs from rfl, hopen]
  show (members strict fuel depth [] ('"' :: next)).map _ = _
  rw [hall]
  rfl

theorem elements_last (hv : value strict fuel depth cs = .ok (v, rest)) (hend : skipBlanks rest = ']' :: after) :
    elements strict (fuel + 1) depth cs = .ok ([v], after) := by
  rw [elements, hv]
  simp only [bind, Except.bind, hend]

theorem elements_more (hv : value strict fuel depth cs = .ok (v, rest)) (hcomma : skipBlanks rest = ',' :: next)
    (hvs : elements strict fuel depth next = .ok (vs, after)) :
    elements strict (fuel + 1) depth cs = .ok (v :: vs, after) := by
  rw [elements, hv]
  simp only [bind, Except.bind, hcomma, hvs]

theorem members_last (hname : fieldName cs = .ok (name, ':' :: next))
    (hv : value strict fuel depth next = .ok (v, rest)) (hend : skipBlanks rest = '\x7d' :: after) :
    members strict (fuel + 1) depth fields ('"' :: cs) = .ok (Value.setField name v fields, after) := by
  have hcolon : skipBlanks (':' :: next) = ':' :: next := rfl
  rw [members]
  simp only [show skipBlanks ('"' :: cs) = '"' :: cs from rfl, hname, hcolon, hv, bind, Except.bind, hend]

theorem members_more (hname : fieldName cs = .ok (name, ':' :: next))
    (hv : value strict fuel depth next = .ok (v, rest)) {more : List Char} (hcomma : skipBlanks rest = ',' :: more)
    (hmore : members strict fuel depth (Value.setField name v fields) more = .ok (all, after)) :
    members strict (fuel + 1) depth fields ('"' :: cs) = .ok (all, after) := by
  have hcolon : skipBlanks (':' :: next) = ':' :: next := rfl
  rw [members]
  simp only [show skipBlanks ('"' :: cs) = '"' :: cs from rfl, hname, hcolon, hv, bind, Except.bind, hcomma,
    hmore]

end

/-! ## Lists and objects -/

/-- Wherever the text of a value stands, it is read as this value. -/
def Rereads (strict : Bool) (depth : Nat) (v : Value) : Prop :=
  ∀ (level fuel : Nat) (rest : List Char), (prettyAt level v).length ≤ fuel → Stops rest →
    value strict fuel depth (prettyAt level v ++ rest) = .ok (v, rest)

theorem elements_pretty {depth : Nat} (level above : Nat) (after : List Char) : ∀ (vs : List Value) (v : Value)
    (fuel : Nat), (∀ w ∈ v :: vs, Rereads strict depth w) →
    (prettyAt level v).length + (prettyItems level vs).length < fuel →
    elements strict fuel depth (prettyAt level v ++ (prettyItems level vs ++ (newline above ++ ']' :: after))) =
      .ok (v :: vs, after)
  | [], v, fuel, hvs, hfuel => by
    obtain ⟨fuel, rfl⟩ : ∃ n, fuel = n + 1 := ⟨fuel - 1, by omega⟩
    refine elements_last (hvs v List.mem_cons_self level fuel _ (by omega) (stops_newline _ _)) ?_
    exact skipBlanks_newline above (']' :: after)
  | w :: ws, v, fuel, hvs, hfuel => by
    obtain ⟨fuel, rfl⟩ : ∃ n, fuel = n + 1 := ⟨fuel - 1, by omega⟩
    have hlength : (prettyItems level (w :: ws)).length =
        1 + (newline level).length + (prettyAt level w).length + (prettyItems level ws).length := by
      simp only [prettyItems, List.length_append, List.length_cons]
      omega
    have hmore := elements_pretty level above after ws w fuel (fun x hx => hvs x (List.mem_cons_of_mem v hx)) (by omega)
    rw [← elements_newline fuel depth level] at hmore
    refine elements_more (hvs v List.mem_cons_self level fuel _ (by omega) ?_) ?_ hmore
    · exact stops_comma _
    · simp only [prettyItems, List.cons_append, List.append_assoc]
      rfl

theorem members_pretty {depth : Nat} (level above : Nat) (after : List Char) : ∀ (fs : List (String × Value))
    (name : String) (v : Value) (fields : List (String × Value)) (fuel : Nat),
    (∀ f ∈ (name, v) :: fs, Rereads strict depth f.2) →
    ((fields ++ (name, v) :: fs).map (·.1)).Nodup →
    (prettyAt level v).length + (prettyFields level fs).length < fuel →
    members strict fuel depth fields (asciiString name.toList ++ (':' :: ' ' :: (prettyAt level v ++
      (prettyFields level fs ++ (newline above ++ '\x7d' :: after))))) = .ok (fields ++ (name, v) :: fs, after)
  | fs, name, v, fields, fuel, hfs, hnames, hfuel => by
    obtain ⟨fuel, rfl⟩ : ∃ n, fuel = n + 1 := ⟨fuel - 1, by omega⟩
    have hset : Value.setField name v fields = fields ++ [(name, v)] := Value.setField_of_nodup hnames
    have hquoted (cs : List Char) :
        asciiString name.toList ++ cs = '"' :: (name.toList.flatMap asciiChar ++ '"' :: cs) := by
      simp only [asciiString, List.cons_append, List.append_assoc, List.nil_append]
    rw [hquoted]
    have hown : Rereads strict depth v := hfs (name, v) List.mem_cons_self
    cases fs with
    | nil =>
      have hv := hown level fuel (newline above ++ '\x7d' :: after) (by omega) (stops_newline _ _)
      rw [← value_space] at hv
      rw [← hset]
      exact members_last (fieldName_asciiString _ _) hv (skipBlanks_newline above _)
    | cons f fs =>
      obtain ⟨k, w⟩ := f
      have hlength : (prettyFields level ((k, w) :: fs)).length = 1 + (newline level).length +
          (asciiString k.toList).length + 2 + (prettyAt level w).length + (prettyFields level fs).length := by
        simp only [prettyFields, List.length_append, List.length_cons]
        omega
      have hv := hown level fuel (prettyFields level ((k, w) :: fs) ++ (newline above ++ '\x7d' :: after)) (by omega)
        (stops_comma _)
      rw [← value_space] at hv
      have hall : fields ++ (name, v) :: (k, w) :: fs = Value.setField name v fields ++ (k, w) :: fs := by
        rw [hset, List.append_assoc, List.singleton_append]
      have hmore := members_pretty level above after fs k w (Value.setField name v fields) fuel
        (fun f hf => hfs f (List.mem_cons_of_mem _ hf)) (hall ▸ hnames) (by omega)
      rw [← members_newline fuel depth level, ← hall] at hmore
      refine members_more (fieldName_asciiString _ _) hv ?_ hmore
      simp only [prettyFields, List.cons_append, List.append_assoc]
      rfl

/-! ## Values -/

/-- What is nested in nothing is a scalar, and begins with no blank and no bracket. -/
theorem exists_cons_scalarText {v : Value} (h : v.Plain 0) :
    ∃ c cs, scalarText v = c :: cs ∧ c ∉ [' ', '\n', '\t', '\r', '[', ']', '\x7b'] := by
  cases h with
  | null => exact ⟨_, _, rfl, by decide⟩
  | bool b => cases b <;> exact ⟨_, _, rfl, by decide⟩
  | text s => exact ⟨_, _, rfl, by decide⟩
  | @int _ n _ =>
    cases n with
    | ofNat n =>
      obtain ⟨c, cs, hdecimal, hc⟩ := exists_cons_decimal n
      have hother : [' ', '\n', '\t', '\r', '[', ']', '\x7b'].all (fun x => !Text.isAsciiDigit x) = true := by decide
      refine ⟨c, cs, hdecimal, fun hmem => ?_⟩
      have hnot := List.all_eq_true.mp hother c hmem
      rw [hc] at hnot
      exact Bool.false_ne_true hnot
    | negSucc n => exact ⟨_, _, rfl, by decide⟩

theorem skipBlanks_cons {c : Char} (hc : c ∉ [' ', '\n', '\t', '\r', '[', ']', '\x7b']) (cs : List Char) :
    skipBlanks (c :: cs) = c :: cs := by
  refine List.dropWhile_cons_of_neg ?_
  simp only [List.mem_cons, not_or] at hc
  simp [hc]

theorem value_of_scalar {c : Char} {cs : List Char} {r : Value × List Char}
    (hc : c ∉ [' ', '\n', '\t', '\r', '[', ']', '\x7b']) (h : scalar strict (c :: cs) = .ok r) (fuel depth : Nat) :
    value strict (fuel + 1) depth (c :: cs) = .ok r := by
  rw [value, skipBlanks_cons hc]
  simp only [List.mem_cons, not_or] at hc
  split
  · next heq => exact absurd (List.cons.inj heq).1 hc.2.2.2.2.1
  · next heq => exact absurd (List.cons.inj heq).1 hc.2.2.2.2.2.2.1
  · exact h

theorem rereads_of_scalar {v : Value} (h : v.Plain 0) (depth : Nat) : Rereads strict depth v := by
  intro level fuel rest hfuel hrest
  have hpretty : prettyAt level v = scalarText v := by cases h <;> rfl
  have hscalar : scalar strict (scalarText v ++ rest) = .ok (v, rest) := by
    cases h with
    | null => exact scalar_null rest
    | bool b => exact scalar_bool b rest
    | int h => exact scalar_int hrest h
    | text s => exact scalar_text s rest
  obtain ⟨c, cs, hcons, hc⟩ := exists_cons_scalarText h
  rw [hpretty, hcons] at hfuel ⊢
  rw [hcons, List.cons_append] at hscalar
  obtain ⟨fuel, rfl⟩ : ∃ n, fuel = n + 1 := ⟨fuel - 1, by simp at hfuel; omega⟩
  exact value_of_scalar hc hscalar fuel depth

/-- The text of a value begins with no blank and no closing bracket. -/
theorem skipBlanks_prettyAt {depth : Nat} {v : Value} (h : v.Plain depth) (level : Nat) (rest : List Char) :
    skipBlanks (prettyAt level v ++ rest) = prettyAt level v ++ rest ∧ (prettyAt level v ++ rest).head? ≠ some ']' := by
  have hscalar (hpretty : prettyAt level v = scalarText v) (h0 : v.Plain 0) :
      skipBlanks (prettyAt level v ++ rest) = prettyAt level v ++ rest ∧
        (prettyAt level v ++ rest).head? ≠ some ']' := by
    obtain ⟨c, cs, hcons, hc⟩ := exists_cons_scalarText h0
    rw [hpretty, hcons, List.cons_append]
    refine ⟨skipBlanks_cons hc _, fun hno => hc ?_⟩
    rw [Option.some.inj hno]
    decide
  cases h with
  | null => exact hscalar rfl .null
  | bool b => exact hscalar rfl (.bool b)
  | int h => exact hscalar rfl (.int h)
  | text s => exact hscalar rfl (.text s)
  | @list depth vs _ => cases vs <;> exact ⟨rfl, by simp [prettyAt, scalarText]⟩
  | @object depth fs _ _ => cases fs <;> exact ⟨rfl, by simp [prettyAt, scalarText]⟩

theorem rereads_of_plain {depth : Nat} {v : Value} (h : v.Plain depth) : Rereads strict depth v := by
  induction h with
  | null => exact rereads_of_scalar .null _
  | bool b => exact rereads_of_scalar (.bool b) _
  | int h => exact rereads_of_scalar (.int h) _
  | text s => exact rereads_of_scalar (.text s) _
  | @list depth vs hplain ih =>
    intro level fuel rest hfuel hrest
    obtain ⟨fuel, rfl⟩ : ∃ n, fuel = n + 1 := ⟨fuel - 1, by cases vs <;> simp [prettyAt, scalarText] at hfuel <;> omega⟩
    cases vs with
    | nil => rfl
    | cons v vs =>
      have hshort : (prettyAt (level + 1) v).length + (prettyItems (level + 1) vs).length < fuel := by
        simp only [prettyAt, List.length_append, List.length_cons] at hfuel
        omega
      have hitems := elements_pretty (level + 1) level rest vs v fuel ih hshort
      have hopen := skipBlanks_prettyAt (hplain v List.mem_cons_self) (level + 1)
        (prettyItems (level + 1) vs ++ (newline level ++ ']' :: rest))
      have htext : prettyAt level (.list (v :: vs)) ++ rest = '[' :: (newline (level + 1) ++
          (prettyAt (level + 1) v ++ (prettyItems (level + 1) vs ++ (newline level ++ ']' :: rest)))) := by
        simp only [prettyAt, List.cons_append, List.append_assoc, List.nil_append]
      rw [htext]
      exact value_list ((skipBlanks_newline _ _).trans hopen.1) hopen.2 hitems
  | @object depth fs hnames hplain ih =>
    intro level fuel rest hfuel hrest
    obtain ⟨fuel, rfl⟩ : ∃ n, fuel = n + 1 := ⟨fuel - 1, by cases fs <;> simp [prettyAt, scalarText] at hfuel <;> omega⟩
    cases fs with
    | nil => rfl
    | cons f fs =>
      obtain ⟨name, v⟩ := f
      have hshort : (prettyAt (level + 1) v).length + (prettyFields (level + 1) fs).length < fuel := by
        simp only [prettyAt, List.length_append, List.length_cons] at hfuel
        omega
      have hfields := members_pretty (level + 1) level rest fs name v [] fuel ih hnames hshort
      have htext : prettyAt level (.object ((name, v) :: fs)) ++ rest = '\x7b' :: (newline (level + 1) ++
          (asciiString name.toList ++ (':' :: ' ' :: (prettyAt (level + 1) v ++
            (prettyFields (level + 1) fs ++ (newline level ++ '\x7d' :: rest)))))) := by
        simp only [prettyAt, List.cons_append, List.append_assoc, List.nil_append]
      rw [htext]
      exact value_object (skipBlanks_newline _ _) hfields

/-- A document is read back. -/
theorem read_pretty {limit : Nat} {v : Value} (h : v.Plain limit) : read strict limit (pretty v) = .ok v := by
  have hrereads : Rereads strict limit v := rereads_of_plain h
  have hread := hrereads 0 (2 * (pretty v).length + 2) [] (by rw [pretty]; omega) stops_nil
  rw [List.append_nil, ← pretty] at hread
  rw [read, hread]
  rfl

/-! ## What can be written -/

theorem text_eq_ok {v : Value} {cs : List Char} : text v = .ok cs ↔ v.isWritable = true ∧ pretty v = cs := by
  unfold text
  split
  · next h => simp [h]
  · next h => simp [h]

theorem text_eq_error {v : Value} {e : Error} :
    text v = .error e ↔ v.isWritable = false ∧ e = .value .tooLongToWrite := by
  unfold text
  split
  · next h => simp [h]
  · next h => simp [h, eq_comm]

end Json
end Airdrop
