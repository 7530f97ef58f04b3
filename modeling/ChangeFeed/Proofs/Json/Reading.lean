import ChangeFeed.Json.Form
import ChangeFeed.Proofs.Json.Quoted
import ChangeFeed.Proofs.Json.Whole

/-!
# JSON trees read back

**Written trees** (`JsonTree.Written`). The trees that values are written as: strings are escaped in
the one way of `Json.quoted`, and numbers are whole.

**Fuel.** The reader takes a byte at least at every second step, so a tree reads back with fuel for
twice its length, whatever follows it (`Reads`). The induction is on the tree; items and members
have inductions of their own along the list.

Main results: `read?_render` and `utf8_text`.
-/

namespace ChangeFeed

namespace JsonTree

/-- A tree as values are written: strings are escaped in the one way of `Json.quoted`, and numbers
are whole numbers. -/
inductive Written : JsonTree → Prop
  | null : Written .null
  | bool (b : Bool) : Written (.bool b)
  | int (n : Int) : Written (.ofInt n)
  | string (s : String) : Written (.ofString s)
  | arr {ts : List JsonTree} (items : ∀ t ∈ ts, Written t) : Written (.arr ts)
  | obj {ms : List (List UInt8 × JsonTree)} (names : ∀ m ∈ ms, ∃ s, m.1 = Json.quoted s)
      (contents : ∀ m ∈ ms, Written m.2) : Written (.obj ms)

end JsonTree

namespace Json

open JsonTree

/-! ## Values -/

theorem skipGap_of_not {b : UInt8} (h : isGap b = false) (bs : List UInt8) :
    skipGap (b :: bs) = b :: bs :=
  List.dropWhile_cons_of_neg (Bool.eq_false_iff.1 h)

theorem readValue?_null (fuel : Nat) (rest : List UInt8) :
    readValue? (fuel + 1) (JsonTree.null.render ++ rest) = some (.null, rest) := by
  rw [JsonTree.render, List.cons_append, readValue?, skipGap_of_not (by decide)]
  rfl

theorem readValue?_bool (fuel : Nat) (b : Bool) (rest : List UInt8) :
    readValue? (fuel + 1) ((JsonTree.bool b).render ++ rest) = some (.bool b, rest) := by
  cases b with
  | true =>
    rw [JsonTree.render, List.cons_append, readValue?, skipGap_of_not (by decide)]
    rfl
  | false =>
    rw [JsonTree.render, List.cons_append, readValue?, skipGap_of_not (by decide)]
    rfl

theorem readValue?_string (fuel : Nat) (s : String) (rest : List UInt8) :
    readValue? (fuel + 1) ((JsonTree.ofString s).render ++ rest) = some (.ofString s, rest) := by
  have hrender : (JsonTree.ofString s).render ++ rest =
      Ascii.quote :: (quoted s ++ Ascii.quote :: rest) := by
    simp [JsonTree.ofString, JsonTree.render]
  rw [hrender, readValue?, skipGap_of_not (by decide)]
  show (readRaw? (quoted s ++ Ascii.quote :: rest)).map _ = _
  rw [readRaw?_quoted]
  rfl

theorem readValue?_int (fuel : Nat) (n : Int) {rest : List UInt8} (hrest : EndsNumber rest) :
    readValue? (fuel + 1) ((JsonTree.ofInt n).render ++ rest) = some (.ofInt n, rest) := by
  have hread := readNumeral?_ofInt n hrest
  obtain ⟨b, bs, hrender, hb⟩ := exists_render_ofInt n
  rw [hrender, List.cons_append] at hread
  rw [JsonTree.ofInt, JsonTree.render, hrender, List.cons_append, readValue?,
    skipGap_of_not (isGap_of_number hb)]
  split
  · simp_all [Ascii.isDigit, Ascii.minus]
  · simp_all [Ascii.isDigit, Ascii.minus]
  · simp_all [Ascii.isDigit, Ascii.minus]
  · simp_all [Ascii.isDigit, Ascii.minus]
  · simp_all [Ascii.isDigit, Ascii.minus]
  · simp_all [Ascii.isDigit, Ascii.minus]
  · rw [hread]
    rfl

/-- A tree begins with a byte that is no gap and closes nothing. -/
theorem exists_render {t : JsonTree} (h : t.Written) :
    ∃ b bs, t.render = b :: bs ∧ isGap b = false ∧ b ≠ 0x5D := by
  cases h with
  | null => exact ⟨_, _, rfl, by decide, by decide⟩
  | bool b => cases b <;> exact ⟨_, _, rfl, by decide, by decide⟩
  | int n =>
    obtain ⟨b, bs, hrender, hb⟩ := exists_render_ofInt n
    refine ⟨b, bs, hrender, isGap_of_number hb, ?_⟩
    rintro rfl
    revert hb
    decide
  | string s => exact ⟨_, _, rfl, by decide, by decide⟩
  | @arr ts items => cases ts <;> exact ⟨_, _, rfl, by decide, by decide⟩
  | @obj ms names contents => cases ms <;> exact ⟨_, _, rfl, by decide, by decide⟩

/-- A tree reads as it is written, whatever follows, with fuel for twice its length. -/
def Reads (t : JsonTree) : Prop :=
  ∀ fuel rest, 2 * t.render.length ≤ fuel + 2 → EndsNumber rest →
    readValue? (fuel + 1) (t.render ++ rest) = some (t, rest)

/-! ## Items -/

theorem length_renderItems_pos (ts : List JsonTree) : 0 < (renderItems ts).length := by
  cases ts <;> simp [renderItems]

theorem readItems?_render {t : JsonTree} {ts : List JsonTree} (hread : ∀ u ∈ t :: ts, Reads u)
    (fuel : Nat) (hfuel : 2 * (t.render ++ renderItems ts).length ≤ fuel) (rest : List UInt8) :
    readItems? fuel (t.render ++ (renderItems ts ++ rest)) = some (t :: ts, rest) := by
  induction ts generalizing t fuel with
  | nil =>
    have hlen := length_renderItems_pos []
    rw [List.length_append] at hfuel
    obtain ⟨fuel, rfl⟩ : ∃ f, fuel = f + 2 := ⟨fuel - 2, by omega⟩
    have ht := hread t List.mem_cons_self fuel (renderItems [] ++ rest) (by omega)
      (endsNumber_cons _ (by decide))
    rw [readItems?, ht]
    simp only [Option.bind_eq_bind, Option.bind_some, renderItems, List.cons_append,
      skipGap_of_not (show isGap Ascii.closeBracket = false by decide)]
    rfl
  | cons u us ih =>
    have hlen : (renderItems (u :: us)).length = (u.render ++ renderItems us).length + 1 := by
      simp [renderItems]
    rw [List.length_append, hlen] at hfuel
    obtain ⟨fuel, rfl⟩ : ∃ f, fuel = f + 2 := ⟨fuel - 2, by omega⟩
    have ht := hread t List.mem_cons_self fuel (renderItems (u :: us) ++ rest) (by omega)
      (endsNumber_cons _ (by decide))
    have hus := ih (fun v hv => hread v (List.mem_cons_of_mem _ hv)) (fuel + 1) (by omega)
    rw [readItems?, ht]
    simp only [Option.bind_eq_bind, Option.bind_some, renderItems, List.cons_append,
      skipGap_of_not (show isGap Ascii.comma = false by decide)]
    show (readItems? (fuel + 1) (u.render ++ renderItems us ++ rest)).bind _ = _
    rw [List.append_assoc, hus]
    rfl

theorem readValue?_openBracket (fuel : Nat) {b : UInt8} (hgap : isGap b = false) (hne : b ≠ 0x5D)
    (bs : List UInt8) : readValue? (fuel + 1) (Ascii.openBracket :: b :: bs) =
      (readItems? fuel (b :: bs)).map fun r => (.arr r.1, r.2) := by
  rw [readValue?, skipGap_of_not (by decide)]
  simp only [Ascii.openBracket, skipGap_of_not hgap]
  split
  · rename_i heq
    exact absurd (List.cons.inj heq).1 hne
  · rfl

theorem reads_arr {ts : List JsonTree} (hw : ∀ t ∈ ts, t.Written) (h : ∀ t ∈ ts, Reads t) :
    Reads (.arr ts) := by
  intro fuel rest hfuel _
  cases ts with
  | nil =>
    rw [render, List.cons_append, readValue?, skipGap_of_not (by decide)]
    rfl
  | cons t ts =>
    have hlen : (JsonTree.arr (t :: ts)).render.length =
        (t.render ++ renderItems ts).length + 1 := by
      simp [render]
    have hread := readItems?_render h fuel (by omega) rest
    obtain ⟨b, bs, hb, hgap, hne⟩ := exists_render (hw t List.mem_cons_self)
    have hrender : (JsonTree.arr (t :: ts)).render ++ rest =
        Ascii.openBracket :: (t.render ++ (renderItems ts ++ rest)) := by
      simp [render]
    rw [hb, List.cons_append] at hread hrender
    rw [hrender, readValue?_openBracket fuel hgap hne, hread]
    rfl

/-! ## Members -/

/-- The text of a member in front of the closing brace or of the next member. -/
theorem readMembers?_member (s : String) {t : JsonTree} (ht : Reads t) {fuel : Nat}
    (hfuel : 2 * t.render.length ≤ fuel + 2) {b : UInt8}
    (hb : b = Ascii.comma ∨ b = Ascii.closeBrace) (rest : List UInt8) :
    readMembers? (fuel + 2) (Ascii.quote :: (quoted s ++
        Ascii.quote :: Ascii.colon :: (t.render ++ b :: rest))) =
      if b = Ascii.comma then
        (readMembers? (fuel + 1) rest).map fun r => ((quoted s, t) :: r.1, r.2)
      else some ([(quoted s, t)], rest) := by
  have ht := ht fuel (b :: rest) hfuel
    (endsNumber_cons _ (by rcases hb with rfl | rfl <;> decide))
  have hcolon : isGap Ascii.colon = false := by decide
  have hgap : isGap b = false := by rcases hb with rfl | rfl <;> decide
  rw [readMembers?, skipGap_of_not (by decide)]
  show (readRaw? (quoted s ++ _)).bind _ = _
  rw [readRaw?_quoted]
  simp only [Option.bind_some, skipGap_of_not hcolon]
  show (readValue? (fuel + 1) (t.render ++ b :: rest)).bind _ = _
  rw [ht]
  simp only [Option.bind_some, skipGap_of_not hgap]
  rcases hb with rfl | rfl
  · rw [if_pos rfl]
    cases h : readMembers? (fuel + 1) rest <;> simp [Ascii.comma, h]
  · rw [if_neg (by decide)]
    rfl

theorem renderMembers_cons (s : String) (t : JsonTree) (ms : List (List UInt8 × JsonTree)) :
    renderMembers ((quoted s, t) :: ms) = Ascii.comma :: Ascii.quote ::
      (quoted s ++ Ascii.quote :: Ascii.colon :: (t.render ++ renderMembers ms)) := by
  simp [renderMembers]

theorem readMembers?_render {s : String} {t : JsonTree} {ms : List (List UInt8 × JsonTree)}
    (ht : Reads t) (names : ∀ m ∈ ms, ∃ s, m.1 = quoted s) (hread : ∀ m ∈ ms, Reads m.2)
    (fuel : Nat) (hfuel : 2 * (t.render.length + (renderMembers ms).length) ≤ fuel)
    (rest : List UInt8) :
    readMembers? fuel (Ascii.quote :: (quoted s ++
      Ascii.quote :: Ascii.colon :: (t.render ++ (renderMembers ms ++ rest)))) =
      some ((quoted s, t) :: ms, rest) := by
  induction ms generalizing s t fuel with
  | nil =>
    have hlen : (renderMembers []).length = 1 := rfl
    obtain ⟨fuel, rfl⟩ : ∃ f, fuel = f + 2 := ⟨fuel - 2, by omega⟩
    rw [renderMembers, List.singleton_append,
      readMembers?_member s ht (by omega) (Or.inr rfl)]
    rfl
  | cons m ms ih =>
    obtain ⟨k, u⟩ := m
    obtain ⟨r, rfl⟩ := names _ List.mem_cons_self
    have hlen : u.render.length + (renderMembers ms).length + 1 ≤
        (renderMembers ((quoted r, u) :: ms)).length := by
      simp only [renderMembers_cons, List.length_cons, List.length_append]
      omega
    obtain ⟨fuel, rfl⟩ : ∃ f, fuel = f + 2 := ⟨fuel - 2, by omega⟩
    have hu : Reads u := hread _ List.mem_cons_self
    have hrest := ih (s := r) hu (fun m hm => names m (List.mem_cons_of_mem _ hm))
      (fun m hm => hread m (List.mem_cons_of_mem _ hm)) (fuel + 1) (by omega)
    simp only [renderMembers_cons, List.cons_append, List.append_assoc]
    rw [readMembers?_member s ht (by omega) (Or.inl rfl), if_pos rfl, hrest]
    rfl

theorem readValue?_openBrace (fuel : Nat) (bs : List UInt8) :
    readValue? (fuel + 1) (Ascii.openBrace :: Ascii.quote :: bs) =
      (readMembers? fuel (Ascii.quote :: bs)).map fun r => (.obj r.1, r.2) := by
  have hquote : isGap Ascii.quote = false := by decide
  rw [readValue?, skipGap_of_not (by decide)]
  simp only [Ascii.openBrace, skipGap_of_not hquote]
  rfl

theorem reads_obj {ms : List (List UInt8 × JsonTree)} (names : ∀ m ∈ ms, ∃ s, m.1 = quoted s)
    (h : ∀ m ∈ ms, Reads m.2) : Reads (.obj ms) := by
  intro fuel rest hfuel _
  cases ms with
  | nil =>
    rw [render, List.cons_append, readValue?, skipGap_of_not (by decide)]
    rfl
  | cons m ms =>
    obtain ⟨k, t⟩ := m
    obtain ⟨s, rfl⟩ := names _ List.mem_cons_self
    have hrender : (JsonTree.obj ((quoted s, t) :: ms)).render =
        Ascii.openBrace :: Ascii.quote :: (quoted s ++ Ascii.quote :: Ascii.colon ::
          (t.render ++ renderMembers ms)) := by
      simp [render]
    have hlen : t.render.length + (renderMembers ms).length + 1 ≤
        (JsonTree.obj ((quoted s, t) :: ms)).render.length := by
      simp only [hrender, List.length_cons, List.length_append]
      omega
    have ht : Reads t := h _ List.mem_cons_self
    have hread := readMembers?_render (s := s) ht
      (fun m hm => names m (List.mem_cons_of_mem _ hm))
      (fun m hm => h m (List.mem_cons_of_mem _ hm)) fuel (by omega) rest
    simp only [hrender, List.cons_append, List.append_assoc]
    rw [readValue?_openBrace, hread]
    rfl

/-! ## Trees -/

theorem reads_of_written {t : JsonTree} (h : t.Written) : Reads t := by
  induction h with
  | null => exact fun fuel rest _ _ => readValue?_null fuel rest
  | bool b => exact fun fuel rest _ _ => readValue?_bool fuel b rest
  | int n => exact fun fuel _ _ hrest => readValue?_int fuel n hrest
  | string s => exact fun fuel rest _ _ => readValue?_string fuel s rest
  | arr items ih => exact reads_arr items ih
  | obj names _ ih => exact reads_obj names ih

end Json

namespace JsonTree

/-- **Reading undoes writing.** A written tree is read from its text. -/
theorem read?_render {t : JsonTree} (h : t.Written) : read? t.render = some t := by
  have hread := Json.reads_of_written h (2 * t.render.length + 1) []
    (Nat.le_trans (Nat.le_add_right _ 1) (Nat.le_add_right _ 2)) (fun b hb => by cases hb)
  rw [List.append_nil] at hread
  rw [read?, hread]
  rfl

/-! ## Texts as strings -/

theorem isText_renderItems {ts : List JsonTree} (h : ∀ t ∈ ts, IsText t.render) :
    IsText (renderItems ts) := by
  induction ts with
  | nil => exact isText_byte (by decide)
  | cons t ts ih =>
    rw [renderItems]
    exact ((isText_byte (by decide)).append (h t List.mem_cons_self)).append
      (ih fun u hu => h u (List.mem_cons_of_mem _ hu))

theorem isText_member (s : String) {bs : List UInt8} (h : IsText bs) :
    IsText (Ascii.quote :: (Json.quoted s ++ Ascii.quote :: Ascii.colon :: bs)) := by
  have hquote : IsText [Ascii.quote] := isText_byte (by decide)
  have hends : IsText [Ascii.quote, Ascii.colon] := isText_ascii (by decide)
  exact hquote.append ((Json.isText_quoted s).append (hends.append h))

theorem isText_renderMembers {ms : List (List UInt8 × JsonTree)}
    (names : ∀ m ∈ ms, ∃ s, m.1 = Json.quoted s) (h : ∀ m ∈ ms, IsText m.2.render) :
    IsText (renderMembers ms) := by
  induction ms with
  | nil => exact isText_byte (by decide)
  | cons m ms ih =>
    obtain ⟨k, t⟩ := m
    obtain ⟨s, rfl⟩ := names _ List.mem_cons_self
    have hrest := ih (fun m hm => names m (List.mem_cons_of_mem _ hm))
      (fun m hm => h m (List.mem_cons_of_mem _ hm))
    rw [Json.renderMembers_cons]
    exact (isText_byte (by decide)).append
      (isText_member s ((h _ List.mem_cons_self).append hrest))

theorem isText_ofInt (n : Int) : IsText (JsonNumeral.ofInt n).render := by
  have hdigit : ∀ d < 10, Ascii.ofDigit d < 0x80 := by decide
  rw [Json.render_ofInt]
  refine isText_ascii (List.all_eq_true.2 fun b hb => decide_eq_true ?_)
  rcases List.mem_append.1 hb with hb | hb
  · split at hb
    · obtain rfl := List.mem_singleton.1 hb
      decide
    · cases hb
  · obtain ⟨d, hd, rfl⟩ := List.mem_map.1 hb
    exact hdigit d (JsonNumeral.lt_of_mem_digitValues hd)

/-- The text of a written tree is in UTF-8. -/
theorem isText_render {t : JsonTree} (h : t.Written) : IsText t.render := by
  induction h with
  | null => exact isText_ascii (by decide)
  | bool b => cases b <;> exact isText_ascii (by decide)
  | int n => exact isText_ofInt n
  | string s =>
    have hquote : IsText [Ascii.quote] := isText_byte (by decide)
    exact (hquote.append (Json.isText_quoted s)).append hquote
  | @arr ts _ ih =>
    cases ts with
    | nil => exact isText_ascii (by decide)
    | cons t ts =>
      have hopen : IsText [Ascii.openBracket] := isText_byte (by decide)
      exact (hopen.append (ih t List.mem_cons_self)).append
        (isText_renderItems fun u hu => ih u (List.mem_cons_of_mem _ hu))
  | @obj ms names _ ih =>
    cases ms with
    | nil => exact isText_ascii (by decide)
    | cons m ms =>
      -- The members are written as after another one, with a brace in place of the comma.
      obtain ⟨k, t⟩ := m
      obtain ⟨s, rfl⟩ := names _ List.mem_cons_self
      have hopen : IsText [Ascii.openBrace] := isText_byte (by decide)
      have hrest := isText_renderMembers (fun m hm => names m (List.mem_cons_of_mem _ hm))
        (fun m hm => ih m (List.mem_cons_of_mem _ hm))
      have hmember := hopen.append (isText_member s ((ih _ List.mem_cons_self).append hrest))
      simpa [render] using hmember

/-- The bytes of the string are those of the text. -/
theorem utf8_text {t : JsonTree} (h : t.Written) : utf8 t.text = t.render :=
  (isText_render h).utf8_ofUtf8?

end JsonTree

end ChangeFeed
