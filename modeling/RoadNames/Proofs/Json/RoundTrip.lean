import RoadNames.Proofs.Json.Inside
set_option autoImplicit false

/-!
Documents are read back as the values that were written. Reading goes along with writing: the text of a value is
read up to its end, whatever closes it, and the fuel for it is paid by its characters.
-/

namespace RoadNames.Json

open Decimal

def opensValue (c : Char) : Bool := !(isSpace c || c = ']' || c = '\x7d')

def opensScalar (c : Char) : Bool := opensValue c && !(c = '"' || c = '[' || c = '\x7b')

/-- The text of the value is read up to its end, wherever it stands. -/
structure Readable (v : Json) : Prop where
  head : ∃ c s, write documentStyle v = c :: s ∧ opensValue c = true
  read : ∀ fuel t, 2 * (write documentStyle v).length ≤ fuel → Closing t →
    readValue fuel (write documentStyle v ++ t) = .ok (v, t)

theorem skipSpaces_cons {c : Char} (h : isSpace c = false) (s : List Char) : skipSpaces (c :: s) = c :: s := by
  simp [skipSpaces, h]

theorem isSpace_of_opensValue {c : Char} (h : opensValue c = true) : isSpace c = false := by
  cases hc : isSpace c with
  | false => rfl
  | true => simp [opensValue, hc] at h

theorem readValue_scalar {c : Char} (hc : opensScalar c = true) (s : List Char) (fuel : Nat) :
    readValue (fuel + 1) (c :: s) = readScalar (c :: s) := by
  have hne : ∀ d, opensScalar d = false → c ≠ d := by
    rintro d hd rfl
    rw [hd] at hc
    cases hc
  unfold readValue
  split
  case h_1 heq => exact absurd (List.cons.inj heq).1 (hne _ (by decide))
  case h_2 heq => exact absurd (List.cons.inj heq).1 (hne _ (by decide))
  case h_3 heq => exact absurd (List.cons.inj heq).1 (hne _ (by decide))
  case h_4 => rfl

theorem readable_of_scalar {v : Json} {c : Char} {s : List Char} (htext : write documentStyle v = c :: s)
    (hc : opensScalar c = true) (hread : readScalar (c :: s) = .ok (v, [])) : Readable v := by
  refine ⟨⟨c, s, htext, (Bool.and_eq_true_iff.mp hc).1⟩, fun fuel t hfuel ht => ?_⟩
  obtain ⟨fuel, rfl⟩ : ∃ k, fuel = k + 1 := ⟨fuel - 1, by rw [htext, List.length_cons] at hfuel; omega⟩
  rw [htext, List.cons_append, readValue_scalar hc]
  exact readScalar_append hread ht

theorem opensScalar_of_isNumberChar {c : Char} (h : isNumberChar c = true) : opensScalar c = true := by
  have hne : ∀ d, isNumberChar d = false → c ≠ d := by
    rintro d hd rfl
    rw [hd] at h
    cases h
  simp [opensScalar, opensValue, isSpace, hne ' ' (by decide), hne '\t' (by decide), hne '\n' (by decide),
    hne '\r' (by decide), hne ']' (by decide), hne '\x7d' (by decide), hne '"' (by decide),
    hne '[' (by decide), hne '\x7b' (by decide)]

theorem intText_opens (n : Int) : ∃ c s, intText n = c :: s ∧ opensScalar c = true := by
  have hread := readScalar_intText n
  cases htext : intText n with
  | nil =>
    rw [htext] at hread
    split at hread <;> cases hread
  | cons c s =>
    have hc : isNumberChar c = true := isNumberChar_of_mem_intText (htext ▸ List.mem_cons_self)
    exact ⟨c, s, rfl, opensScalar_of_isNumberChar hc⟩

theorem readable_int {n : Int} (h : isShort n = true) : Readable (int n) := by
  obtain ⟨c, s, htext, hc⟩ := intText_opens n
  have hread := readScalar_intText n
  rw [if_pos h, htext] at hread
  exact readable_of_scalar (by rw [write, htext]) hc hread

theorem read_intText_of_not_short {n : Int} (h : isShort n = false) :
    read (intText n) = .error (.longInteger (natText n.natAbs).length) := by
  obtain ⟨c, s, htext, hc⟩ := intText_opens n
  have hread := readScalar_intText n
  rw [if_neg (by simp [h]), htext] at hread
  have hspace := skipSpaces_cons (isSpace_of_opensValue (Bool.and_eq_true_iff.mp hc).1) s
  rw [read, htext, hspace, readValue_scalar hc, hread]

theorem read_eq_ok_of_parse? {s : List Char} {v : Json} (h : parse? s = some v) : read s = .ok v := by
  cases hread : read s with
  | error e => simp [parse?, hread, Except.toOption] at h
  | ok w => simpa [parse?, hread, Except.toOption] using h

theorem readScalar_of_parse? {s : List Char} {v : Json} (hs : ∀ c ∈ s, isNumberChar c = true)
    (h : parse? s = some v) : ∃ c more, s = c :: more ∧ readScalar s = .ok (v, []) := by
  have hscalar := fun c hc => opensScalar_of_isNumberChar (hs c hc)
  have hspace : ∀ u : List Char, (∀ c ∈ u, isNumberChar c = true) → skipSpaces u = u := by
    intro u hu
    cases u with
    | nil => rfl
    | cons c u =>
      have hc := opensScalar_of_isNumberChar (hu c (by simp))
      exact skipSpaces_cons (isSpace_of_opensValue (Bool.and_eq_true_iff.mp hc).1) u
  have hwhole := read_eq_ok_of_parse? h
  unfold read at hwhole
  rw [hspace s hs] at hwhole
  cases s with
  | nil => cases hwhole
  | cons c more =>
    rw [readValue_scalar (hscalar c (by simp))] at hwhole
    cases hread : readScalar (c :: more) with
    | error e => simp [hread] at hwhole
    | ok read =>
      obtain ⟨w, rest⟩ := read
      -- What is left would be characters of the number as well, and no blanks.
      have hrest := hspace rest fun d hd => hs d ((readScalar_suffix hread).subset hd)
      simp only [hread, hrest] at hwhole
      split at hwhole
      · cases hwhole
        simp_all
      · cases hwhole

theorem readable_float {x : Float}
    (h : isFinite x = true → parse? (write documentStyle (float x)) = some (float x)) : Readable (float x) := by
  cases hb : binary? x with
  | some b =>
    have hchars : ∀ c ∈ write documentStyle (float x), isNumberChar c = true := fun c hc =>
      isNumberChar_of_mem_floatText hb (by simpa [write] using hc)
    have hfinite := (isFinite_iff_binary? x).mpr (by rw [hb]; rfl)
    obtain ⟨c, s, htext, hread⟩ := readScalar_of_parse? hchars (h hfinite)
    rw [htext] at hread hchars
    exact readable_of_scalar htext (opensScalar_of_isNumberChar (hchars c (by simp))) hread
  | none =>
    rcases eq_special_of_binary?_eq_none hb with rfl | rfl | rfl
    · exact readable_of_scalar (s := "aN".toList) (c := 'N') (by decide +kernel) (by decide) rfl
    · exact readable_of_scalar (s := "nfinity".toList) (c := 'I') (by decide +kernel) (by decide) rfl
    · exact readable_of_scalar (s := "Infinity".toList) (c := '-') (by decide +kernel) (by decide) rfl

theorem readString_quoteString (s t : List Char) (fuel : Nat) (hfuel : (quoteString s).length ≤ fuel + 1) :
    readString fuel [] (s.flatMap escapeChar ++ '"' :: t) = some (String.ofList s, t) := by
  have hlength := length_le_flatMap s
  simp only [quoteString, List.length_append, List.length_cons, List.length_nil] at hfuel
  exact readString_flatMap s [] t fuel (by omega)

theorem readable_str (s : String) : Readable (str s) := by
  refine ⟨⟨'"', _, rfl, by decide⟩, fun fuel t hfuel _ => ?_⟩
  obtain ⟨fuel, rfl⟩ : ∃ k, fuel = k + 1 := ⟨fuel - 1, by
    simp only [write, documentStyle, quoteString, List.length_append, List.length_cons] at hfuel
    omega⟩
  have hread := readString_quoteString s.toList t fuel (by
    simp only [write, documentStyle] at hfuel
    omega)
  have htext : write documentStyle (str s) ++ t = '"' :: (s.toList.flatMap escapeChar ++ '"' :: t) := by
    simp [write, documentStyle, quoteString]
  rw [htext, readValue]
  simp [hread]

theorem closing_cons {c : Char} (h : c = ',' ∨ c = ']' ∨ c = '\x7d') (s : List Char) : Closing (c :: s) := by
  intro d hd
  cases hd
  exact h

theorem skipSpaces_blank {c : Char} {s : List Char} (h : opensValue c = true) :
    skipSpaces (' ' :: c :: s) = c :: s :=
  skipSpaces_cons (isSpace_of_opensValue h) s

theorem head_writeItems {items : List Json} (hne : items ≠ []) (hitems : ∀ v ∈ items, Readable v) :
    ∃ c s, writeItems documentStyle items = c :: s ∧ opensValue c = true := by
  cases items with
  | nil => exact absurd rfl hne
  | cons v rest =>
    obtain ⟨c, s, htext, hc⟩ := (hitems v (by simp)).head
    cases rest with
    | nil => exact ⟨c, s, by rw [writeItems, htext], hc⟩
    | cons w rest =>
      exact ⟨c, s ++ ',' :: ' ' :: writeItems documentStyle (w :: rest), by simp [writeItems, htext], hc⟩

theorem readItems_write {items : List Json} (hne : items ≠ []) (hitems : ∀ v ∈ items, Readable v) (fuel : Nat)
    (done : List Json) (t : List Char)
    (hfuel : 2 * (writeItems documentStyle items).length + 1 ≤ fuel) :
    readItems fuel done (writeItems documentStyle items ++ ']' :: t) =
      .ok (arr (done.reverse ++ items), t) := by
  induction items generalizing fuel done with
  | nil => exact absurd rfl hne
  | cons v rest ih =>
    obtain ⟨fuel, rfl⟩ : ∃ k, fuel = k + 1 := ⟨fuel - 1, by omega⟩
    have hv := hitems v (by simp)
    cases rest with
    | nil =>
      simp only [writeItems] at hfuel ⊢
      have hread := hv.read fuel (']' :: t) (by omega) (closing_cons (.inr (.inl rfl)) t)
      have hclose : skipSpaces (']' :: t) = ']' :: t := rfl
      simp [readItems, hread, hclose]
    | cons w rest =>
      have hrest : ∀ u ∈ w :: rest, Readable u := fun u hu => hitems u (List.mem_cons_of_mem v hu)
      obtain ⟨c, s, htext, hc⟩ := head_writeItems (by simp) hrest
      simp only [writeItems, List.length_append, List.length_cons] at hfuel
      have hread := hv.read fuel (',' :: ' ' :: (writeItems documentStyle (w :: rest) ++ ']' :: t)) (by omega)
        (closing_cons (.inl rfl) _)
      have hlater := ih (by simp) hrest fuel (v :: done) (by omega)
      have hcomma : skipSpaces (',' :: ' ' :: (writeItems documentStyle (w :: rest) ++ ']' :: t)) =
          ',' :: ' ' :: (writeItems documentStyle (w :: rest) ++ ']' :: t) := rfl
      rw [htext, List.cons_append] at hread hlater hcomma
      simp only [writeItems, htext, List.append_assoc, List.cons_append, readItems, hread, hcomma,
        skipSpaces_blank hc, hlater]
      simp

theorem readable_arr {items : List Json} (hitems : ∀ v ∈ items, Readable v) : Readable (arr items) := by
  refine ⟨⟨'[', _, rfl, by decide⟩, fun fuel t hfuel _ => ?_⟩
  have htext : write documentStyle (arr items) ++ t = '[' :: (writeItems documentStyle items ++ ']' :: t) := by
    simp [write]
  simp only [write, List.length_append, List.length_cons, List.length_nil] at hfuel
  obtain ⟨fuel, rfl⟩ : ∃ k, fuel = k + 1 := ⟨fuel - 1, by omega⟩
  rw [htext, readValue]
  by_cases hne : items = []
  · subst hne
    rfl
  · obtain ⟨c, s, hhead, hc⟩ := head_writeItems hne hitems
    have hread := readItems_write hne hitems fuel [] t (by omega)
    have hbracket : c ≠ ']' := by
      rintro rfl
      cases hc
    rw [hhead, List.cons_append] at hread ⊢
    rw [skipSpaces_cons (isSpace_of_opensValue hc)]
    split
    case h_1 heq => exact absurd (List.cons.inj heq).1 hbracket
    case h_2 => exact hread

theorem readFields_field {v : Json} (hv : Readable v) (key : String) (fuel : Nat) (done : Fields)
    (hfuel : 2 * (quoteString key.toList ++ ':' :: ' ' :: write documentStyle v).length ≤ fuel)
    (t : List Char) :
    readFields (fuel + 1) done (quoteString key.toList ++ ':' :: ' ' :: (write documentStyle v ++ ',' :: t)) =
        readFields fuel ((key, v) :: done) (skipSpaces t) ∧
      readFields (fuel + 1) done
          (quoteString key.toList ++ ':' :: ' ' :: (write documentStyle v ++ '\x7d' :: t)) =
        .ok (obj (Table.setAll [] ((key, v) :: done).reverse), t) := by
  simp only [List.length_append, List.length_cons] at hfuel
  obtain ⟨c, s, htext, hc⟩ := hv.head
  have hquote : ∀ u, quoteString key.toList ++ u = '"' :: (key.toList.flatMap escapeChar ++ '"' :: u) := by
    simp [quoteString]
  have hkey : ∀ u, readString fuel [] (key.toList.flatMap escapeChar ++ '"' :: u) = some (key, u) := fun u => by
    rw [readString_quoteString key.toList u fuel (by omega), String.ofList_toList]
  have hblank : ∀ u, skipSpaces (' ' :: (write documentStyle v ++ u)) = write documentStyle v ++ u := fun u => by
    rw [htext, List.cons_append, skipSpaces_blank hc]
  have hread : ∀ u, Closing u → readValue fuel (write documentStyle v ++ u) = .ok (v, u) :=
    fun u => hv.read fuel u (by omega)
  have hstay : ∀ d u, isSpace d = false → skipSpaces (d :: u) = d :: u := fun d u hd => skipSpaces_cons hd u
  constructor
  · rw [hquote, readFields]
    simp only [hkey, hstay ':' _ (by decide), hblank, hread _ (closing_cons (.inl rfl) t),
      hstay ',' _ (by decide)]
  · rw [hquote, readFields]
    simp only [hkey, hstay ':' _ (by decide), hblank, hread _ (closing_cons (.inr (.inr rfl)) t),
      hstay '\x7d' _ (by decide)]

theorem readFields_write {fields : Fields} (hne : fields ≠ []) (hfields : ∀ f ∈ fields, Readable f.2)
    (fuel : Nat) (done : Fields) (t : List Char)
    (hfuel : 2 * (writeFields documentStyle fields).length + 1 ≤ fuel) :
    readFields fuel done (writeFields documentStyle fields ++ '\x7d' :: t) =
      .ok (obj (Table.setAll [] (done.reverse ++ fields)), t) := by
  induction fields generalizing fuel done with
  | nil => exact absurd rfl hne
  | cons f rest ih =>
    obtain ⟨key, v⟩ := f
    obtain ⟨fuel, rfl⟩ : ∃ k, fuel = k + 1 := ⟨fuel - 1, by omega⟩
    have hv : Readable v := hfields (key, v) (by simp)
    cases rest with
    | nil =>
      have hfield := (readFields_field hv key fuel done
        (by simp only [writeFields] at hfuel; exact Nat.le_of_succ_le_succ hfuel) t).2
      simpa [writeFields, documentStyle] using hfield
    | cons g rest =>
      have hrest : ∀ h ∈ g :: rest, Readable h.2 := fun h hh => hfields h (List.mem_cons_of_mem (key, v) hh)
      have hquote : ∃ s, writeFields documentStyle (g :: rest) = '"' :: s := by
        obtain ⟨key, w⟩ := g
        cases rest <;> exact ⟨_, rfl⟩
      obtain ⟨s, htext⟩ := hquote
      have hblank : skipSpaces (' ' :: (writeFields documentStyle (g :: rest) ++ '\x7d' :: t)) =
          writeFields documentStyle (g :: rest) ++ '\x7d' :: t := by
        rw [htext, List.cons_append, skipSpaces_blank (by decide)]
      have hwrite : writeFields documentStyle ((key, v) :: g :: rest) ++ '\x7d' :: t =
          quoteString key.toList ++ ':' :: ' ' ::
            (write documentStyle v ++ ',' :: ' ' :: (writeFields documentStyle (g :: rest) ++ '\x7d' :: t)) := by
        simp [writeFields, documentStyle]
      have hlength : (writeFields documentStyle ((key, v) :: g :: rest)).length =
          (quoteString key.toList ++ ':' :: ' ' :: write documentStyle v).length + 2 +
            (writeFields documentStyle (g :: rest)).length := by
        simp [writeFields, documentStyle]
        omega
      have hfield := (readFields_field hv key fuel done (by omega)
        (' ' :: (writeFields documentStyle (g :: rest) ++ '\x7d' :: t))).1
      rw [hwrite, hfield, hblank, ih (by simp) hrest fuel ((key, v) :: done) (by omega)]
      simp

theorem readable_obj {fields : Fields} (hkeys : fields.keys.Nodup) (hfields : ∀ f ∈ fields, Readable f.2) :
    Readable (obj fields) := by
  refine ⟨⟨'\x7b', _, rfl, by decide⟩, fun fuel t hfuel _ => ?_⟩
  have htext : write documentStyle (obj fields) ++ t =
      '\x7b' :: (writeFields documentStyle fields ++ '\x7d' :: t) := by
    simp [write]
  simp only [write, List.length_append, List.length_cons, List.length_nil] at hfuel
  obtain ⟨fuel, rfl⟩ : ∃ k, fuel = k + 1 := ⟨fuel - 1, by omega⟩
  rw [htext, readValue]
  cases fields with
  | nil => rfl
  | cons f rest =>
    have hquote : ∃ s, writeFields documentStyle (f :: rest) = '"' :: s := by
      obtain ⟨key, v⟩ := f
      cases rest <;> exact ⟨_, rfl⟩
    obtain ⟨s, hhead⟩ := hquote
    have hread := readFields_write (by simp) hfields fuel [] t (by omega)
    rw [hhead, List.cons_append] at hread ⊢
    rw [skipSpaces_cons (by decide)]
    refine hread.trans ?_
    rw [List.reverse_nil, List.nil_append, Table.setAll_of_nodup (by simpa using hkeys), List.nil_append]

theorem readable {v : Json} (hkeys : v.DistinctKeys) (hfloats : v.FloatsReadBack) (hshort : v.Short) :
    Readable v := by
  induction v using inside_out with
  | null => exact readable_of_scalar rfl (by decide) rfl
  | bool b => cases b <;> exact readable_of_scalar rfl (by decide) rfl
  | int n => exact readable_int ((isShort_iff n).mpr (hshort n (.self _)))
  | float x => exact readable_float (hfloats x (.self _))
  | str s => exact readable_str s
  | arr items ih =>
    exact readable_arr fun v hv => ih v hv (fun fields h => hkeys fields (.item hv h))
      (fun x h => hfloats x (.item hv h)) (short_arr_iff.mp hshort v hv)
  | obj fields ih =>
    exact readable_obj (hkeys fields (.self _)) fun f hf => ih f hf (fun inner h => hkeys inner (.field hf h))
      (fun x h => hfloats x (.field hf h)) (short_obj_iff.mp hshort f hf)

/-- A document is read back as the value that was written. -/
theorem read_write {v : Json} (hkeys : v.DistinctKeys) (hfloats : v.FloatsReadBack) (hshort : v.Short) :
    read (write documentStyle v) = .ok v := by
  have hreadable := readable hkeys hfloats hshort
  obtain ⟨c, s, htext, hc⟩ := hreadable.head
  have hvalue := hreadable.read (2 * (write documentStyle v).length + 2) [] (by omega) .nil
  rw [List.append_nil] at hvalue
  have hstart : skipSpaces (write documentStyle v) = write documentStyle v := by
    rw [htext, skipSpaces_cons (isSpace_of_opensValue hc)]
  rw [read, hstart, hvalue]
  rfl

theorem write_ne_nil {v : Json} (hkeys : v.DistinctKeys) (hfloats : v.FloatsReadBack) (hshort : v.Short) :
    write documentStyle v ≠ [] := by
  obtain ⟨c, s, htext, _⟩ := (readable hkeys hfloats hshort).head
  rw [htext]
  exact List.cons_ne_nil c s

theorem newline_not_mem_writeItems {items : List Json} (h : ∀ v ∈ items, '\n' ∉ write documentStyle v) :
    '\n' ∉ writeItems documentStyle items := by
  induction items with
  | nil => simp [writeItems]
  | cons v rest ih =>
    have hrest := ih fun w hw => h w (List.mem_cons_of_mem v hw)
    cases rest with
    | nil => exact h v (by simp)
    | cons w rest => simp [writeItems, h v (by simp), hrest]

theorem newline_not_mem_writeFields {fields : Fields} (h : ∀ f ∈ fields, '\n' ∉ write documentStyle f.2) :
    '\n' ∉ writeFields documentStyle fields := by
  have hquote : ∀ s, '\n' ∉ documentStyle.quote s := newline_not_mem_quoteString
  induction fields with
  | nil => simp [writeFields]
  | cons f rest ih =>
    obtain ⟨key, v⟩ := f
    have hv : '\n' ∉ write documentStyle v := h (key, v) (by simp)
    have hrest := ih fun g hg => h g (List.mem_cons_of_mem (key, v) hg)
    cases rest with
    | nil => simp [writeFields, hquote, hv]
    | cons g rest => simp [writeFields, hquote, hv, hrest]

theorem newline_not_mem_floatText (x : Float) : '\n' ∉ floatText documentStyle.special x := by
  intro hmem
  cases hb : binary? x with
  | some b => exact absurd (isNumberChar_of_mem_floatText hb hmem) (by decide)
  | none =>
    revert hmem
    rcases eq_special_of_binary?_eq_none hb with rfl | rfl | rfl <;> decide +kernel

/-- Whatever is in a value, it is written on one line. -/
theorem newline_not_mem_write (v : Json) : '\n' ∉ write documentStyle v := by
  induction v using inside_out with
  | null => decide
  | bool b => cases b <;> decide
  | int n => exact fun hmem => absurd (isNumberChar_of_mem_intText hmem) (by decide)
  | float x => exact newline_not_mem_floatText x
  | str s => exact newline_not_mem_quoteString s.toList
  | arr items ih => simpa [write] using newline_not_mem_writeItems ih
  | obj fields ih => simpa [write] using newline_not_mem_writeFields ih

end RoadNames.Json
