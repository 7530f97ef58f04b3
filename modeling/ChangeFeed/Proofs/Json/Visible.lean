import ChangeFeed.Proofs.Json.Reading

/-!
# JSON texts without control characters

Between quotes every control character is escaped, and no other part of a compact text has one. So
whatever the strings of a written tree are, its text is one line.

Main result: `visible_render`.
-/

namespace ChangeFeed

/-- No byte comes before the space in ASCII. -/
def Visible (bs : List UInt8) : Prop := ∀ b ∈ bs, Ascii.space ≤ b

@[simp] theorem visible_nil : Visible [] := fun _ h => absurd h List.not_mem_nil

@[simp] theorem visible_cons (b : UInt8) (bs : List UInt8) :
    Visible (b :: bs) ↔ Ascii.space ≤ b ∧ Visible bs :=
  List.forall_mem_cons

@[simp] theorem visible_append (bs cs : List UInt8) :
    Visible (bs ++ cs) ↔ Visible bs ∧ Visible cs :=
  List.forall_mem_append

theorem Visible.lineFeed_not_mem {bs : List UInt8} (h : Visible bs) : Ascii.lineFeed ∉ bs :=
  fun hmem => absurd (h _ hmem) (by decide)

/-! ## Strings and numbers -/

theorem visible_quoted (s : String) : Visible (Json.quoted s) := by
  -- A quantifier over members would be decided over all bytes.
  have hall : ∀ n < 256, (Json.quotedByte (UInt8.ofNat n)).all (Ascii.space ≤ ·) = true := by
    decide +kernel
  intro c hc
  obtain ⟨b, -, hc⟩ := List.mem_flatMap.1 hc
  have hb := hall b.toNat b.toNat_lt
  rw [UInt8.ofNat_toNat, List.all_eq_true] at hb
  exact of_decide_eq_true (hb c hc)

theorem visible_ofInt (n : Int) : Visible (JsonNumeral.ofInt n).render := by
  have hdigit : ∀ d < 10, Ascii.space ≤ Ascii.ofDigit d := by decide
  rw [Json.render_ofInt, visible_append]
  constructor
  · split
    · simp +decide
    · exact visible_nil
  · intro b hb
    obtain ⟨d, hd, rfl⟩ := List.mem_map.1 hb
    exact hdigit d (JsonNumeral.lt_of_mem_digitValues hd)

/-! ## Trees -/

namespace JsonTree

theorem visible_renderItems {ts : List JsonTree} (h : ∀ t ∈ ts, Visible t.render) :
    Visible (renderItems ts) := by
  induction ts with
  | nil => simp +decide [renderItems]
  | cons t ts ih =>
    obtain ⟨ht, hts⟩ := List.forall_mem_cons.1 h
    simp +decide [renderItems, ht, ih hts]

theorem visible_renderMembers {ms : List (List UInt8 × JsonTree)}
    (names : ∀ m ∈ ms, ∃ s, m.1 = Json.quoted s) (h : ∀ m ∈ ms, Visible m.2.render) :
    Visible (renderMembers ms) := by
  induction ms with
  | nil => simp +decide [renderMembers]
  | cons m ms ih =>
    obtain ⟨⟨s, hs⟩, hnames⟩ := List.forall_mem_cons.1 names
    obtain ⟨hm, hms⟩ := List.forall_mem_cons.1 h
    simp +decide [renderMembers, hs, visible_quoted, hm, ih hnames hms]

/-- **The text of a written tree has no control characters.** -/
theorem visible_render {t : JsonTree} (h : t.Written) : Visible t.render := by
  induction h with
  | null => simp +decide [render]
  | bool b => cases b <;> simp +decide [render]
  | int n => exact visible_ofInt n
  | string s =>
    simp +decide [ofString, render, visible_quoted]
  | @arr ts _ ih =>
    cases ts with
    | nil => simp +decide [render]
    | cons t ts =>
      obtain ⟨ht, hts⟩ := List.forall_mem_cons.1 ih
      simp +decide [render, ht, visible_renderItems hts]
  | @obj ms names _ ih =>
    cases ms with
    | nil => simp +decide [render]
    | cons m ms =>
      obtain ⟨⟨s, hs⟩, hnames⟩ := List.forall_mem_cons.1 names
      obtain ⟨hm, hms⟩ := List.forall_mem_cons.1 ih
      simp +decide [render, hs, visible_quoted, hm, visible_renderMembers hnames hms]

end JsonTree

end ChangeFeed
