import TextCompletion.Proofs.Json.Passing
import TextCompletion.Proofs.Json.Records

/-!
Records against the documents that they are read from. The members of an object set the fields of
the record one after another, members that are named as no field leave it alone, and a field that
is named twice is not taken. What is set is told by a relation between the reader of a field and
the text of its value: towards the record, that the reader takes this text wherever it stands;
from a record that was read, that it took it where it stood.
-/

namespace TextCompletion.Json.Reader

variable {α σ : Type}

/-- Where the text stood, after blanks, the reader took it for the value. -/
def Accepts (r : Reader α) (t : List UInt8) (a : α) : Prop :=
  ∃ w rest p c, IsBlank w ∧ Closes rest ∧ r ⟨w ++ (t ++ rest), p⟩ = .ok a c

theorem Accepts.of_map {β : Type} {r : Reader α} {set : α → β} {t : List UInt8} {b : β}
    (accepts : Accepts (do pure (set (← r))) t b) : ∃ a, Accepts r t a ∧ set a = b := by
  obtain ⟨w, rest, p, c, blank, closes, ok⟩ := accepts
  obtain ⟨a, c₁, read, done⟩ := bind_eq_ok.1 ok
  exact ⟨a, ⟨w, rest, p, c₁, blank, closes, read⟩, (pure_eq_ok.1 done).1⟩

theorem accepts_optional {r : Reader α} {t : List UInt8} {o : Option α} (value : IsValue t)
    (accepts : Accepts (optional r) t o) : o = none ↔ t = nullText := by
  obtain ⟨w, rest, p, c, blank, -, ok⟩ := accepts
  rw [← value.head?_eq_null]
  obtain ⟨b, more, rfl, plain, -⟩ := value.opens
  rw [List.cons_append] at ok
  replace ok := (bind_of_ok (peekToken_blank blank plain)).symm.trans ok
  by_cases null : b = 110
  · subst null
    obtain ⟨_, c₁, -, ok⟩ := bind_eq_ok.1 ok
    obtain ⟨_, c₂, -, ok⟩ := bind_eq_ok.1 ok
    exact iff_of_true (pure_eq_ok.1 ok).1.symm rfl
  · have read : (some <$> r) ⟨b :: (more ++ rest), p.afterAll w⟩ = .ok o c := by
      simpa [null] using ok
    rw [map_eq_pure_bind] at read
    obtain ⟨a, c₁, -, ok⟩ := bind_eq_ok.1 read
    obtain ⟨rfl, -⟩ := pure_eq_ok.1 ok
    exact iff_of_false (by simp) (by simpa using null)

def Schema.field? (schema : Schema σ) (name : String) : Option (Field σ) :=
  schema.fields.find? fun f => f.name == name

/-- What the members make of a record in which the fields `seen` were met before. -/
inductive Takes (schema : Schema σ) (sets : Reader σ → List UInt8 → σ → Prop) :
    List String → σ → List Member → σ → Prop
  | done {seen : List String} {s : σ} :
      (∀ f ∈ schema.fields, f.required = true → f.name ∈ seen) → Takes schema sets seen s [] s
  | passed {seen : List String} {s s' : σ} {m : Member} {members : List Member} {name : String} :
      m.Named name → schema.field? name = none → Takes schema sets seen s members s' →
      Takes schema sets seen s (m :: members) s'
  | set {seen : List String} {s s₁ s' : σ} {m : Member} {members : List Member} {name : String}
      {f : Field σ} :
      m.Named name → schema.field? name = some f → name ∉ seen → sets (f.read s) m.value s₁ →
      Takes schema sets (name :: seen) s₁ members s' → Takes schema sets seen s (m :: members) s'

variable {schema : Schema σ} {seen : List String} {s s' : σ} {m : Member} {members : List Member}
  {name : String} {t w rest lead body : List UInt8} {ts : List (List UInt8)} {p : Position}
  {first : Bool} {fuel : Nat}

theorem field?_eq_some {f : Field σ} (found : schema.field? name = some f) :
    f ∈ schema.fields ∧ f.name = name :=
  ⟨List.mem_of_find?_eq_some found, by simpa using List.find?_some found⟩

theorem exists_field? {f : Field σ} (listed : f ∈ schema.fields) :
    ∃ g, schema.field? f.name = some g :=
  Option.isSome_iff_exists.1 (List.find?_isSome.2 ⟨f, listed, beq_self_eq_true f.name⟩)

/-! ## One member -/

theorem nextMember_done (first : Bool) (blank : IsBlank w) :
    nextMember first ⟨w ++ 125 :: rest, p⟩ = .ok false ⟨125 :: rest, p.afterAll w⟩ :=
  bind_of_ok (peekToken_blank blank rfl)

theorem nextMember_leads (leads : Leads first lead) :
    nextMember first ⟨lead ++ 34 :: rest, p⟩ = .ok true ⟨34 :: rest, p.afterAll lead⟩ := by
  cases leads with
  | first blank => exact bind_of_ok (peekToken_blank blank rfl)
  | later blank blank' =>
    rw [List.append_assoc, List.cons_append, Position.afterAll_append, Position.afterAll_cons]
    exact (bind_of_ok (peekToken_blank blank rfl)).trans
      ((bind_of_ok (advance_cons 44 _ _)).trans (bind_of_ok (peekToken_blank blank' rfl)))

theorem nextMember_string {key : List UInt8} (string : IsString key) (leads : Leads first lead) :
    nextMember first ⟨lead ++ (key ++ rest), p⟩ = .ok true ⟨key ++ rest, p.afterAll lead⟩ := by
  obtain ⟨pieces, -, rfl⟩ := string
  exact nextMember_leads leads

theorem colon_blank (blank : IsBlank w) :
    colon ⟨w ++ 58 :: rest, p⟩ = .ok () ⟨rest, (p.afterAll w).after 58⟩ :=
  (bind_of_ok (peekToken_blank blank rfl)).trans (advance_cons 58 rest _)

def memberFrom (schema : Schema σ) (fuel : Nat) (seen : List String) (s : σ) (name : String) :
    Reader σ :=
  match schema.field? name with
  | none => do
    colon
    skipValue
    namedFields schema fuel false seen s
  | some f =>
    if seen.contains name then failUnplaced (.duplicateField name)
    else do
      colon
      let s ← f.read s
      namedFields schema fuel false (name :: seen) s

theorem namedFields_named (leads : Leads first lead) (named : m.Named name) :
    namedFields schema (fuel + 1) first seen s ⟨lead ++ (m.key ++ rest), p⟩ =
      memberFrom schema fuel seen s name ⟨rest, (p.afterAll lead).afterAll m.key⟩ := by
  rw [namedFields, bind_of_ok (nextMember_string (Quotes.isString named) leads)]
  exact bind_of_ok (key_quotes named)

theorem memberFrom_passed (other : schema.field? name = none) (blank : IsBlank w)
    {w' : List UInt8} (blank' : IsBlank w') (value : IsValue t) (closes : Closes rest) :
    memberFrom schema fuel seen s name ⟨w ++ 58 :: (w' ++ (t ++ rest)), p⟩ =
      namedFields schema fuel false seen s
        ⟨rest, (((p.afterAll w).after 58).afterAll w').afterAll t⟩ := by
  unfold memberFrom
  rw [other]
  exact (bind_of_ok (colon_blank blank)).trans
    (bind_of_ok (reads_skipValue value w' rest _ blank' closes))

theorem memberFrom_set {f : Field σ} (found : schema.field? name = some f) (new : name ∉ seen)
    {s₁ : σ} (reads : Reads (f.read s) t s₁) (blank : IsBlank w) {w' : List UInt8}
    (blank' : IsBlank w') (closes : Closes rest) :
    memberFrom schema fuel seen s name ⟨w ++ 58 :: (w' ++ (t ++ rest)), p⟩ =
      namedFields schema fuel false (name :: seen) s₁
        ⟨rest, (((p.afterAll w).after 58).afterAll w').afterAll t⟩ := by
  have unseen : ¬seen.contains name = true := by simpa using new
  unfold memberFrom
  rw [found]
  simp only [if_neg unseen]
  exact (bind_of_ok (colon_blank blank)).trans (bind_of_ok (reads w' rest _ blank' closes))

theorem memberFrom_eq_ok (skippable : ∀ f ∈ schema.fields, ∀ s, Skippable (f.read s))
    (blank : IsBlank w) {w' : List UInt8} (blank' : IsBlank w') (value : IsValue t)
    (closes : Closes rest) {c : Cursor}
    (ok : memberFrom schema fuel seen s name ⟨w ++ 58 :: (w' ++ (t ++ rest)), p⟩ = .ok s' c) :
    schema.field? name = none ∧ namedFields schema fuel false seen s
        ⟨rest, (((p.afterAll w).after 58).afterAll w').afterAll t⟩ = .ok s' c ∨
      ∃ f s₁, schema.field? name = some f ∧ name ∉ seen ∧ Accepts (f.read s) t s₁ ∧
        namedFields schema fuel false (name :: seen) s₁
          ⟨rest, (((p.afterAll w).after 58).afterAll w').afterAll t⟩ = .ok s' c := by
  cases found : schema.field? name with
  | none => exact .inl ⟨rfl, memberFrom_passed found blank blank' value closes ▸ ok⟩
  | some f =>
    unfold memberFrom at ok
    rw [found] at ok
    by_cases old : seen.contains name = true
    · simp only [if_pos old] at ok
      exact absurd ok (fails_failUnplaced _ _ _ _)
    · simp only [if_neg old] at ok
      replace ok := (bind_of_ok (colon_blank blank)).symm.trans ok
      obtain ⟨s₁, c₁, read, ok⟩ := bind_eq_ok.1 ok
      obtain rfl := (skippable f (List.mem_of_find?_eq_some found) s).stops value blank' closes read
      exact .inr ⟨f, s₁, rfl, by simpa using old, ⟨w', rest, _, _, blank', closes, read⟩, ok⟩

/-! ## All members -/

theorem namedFields_of_takes (takes : Takes schema Reads seen s members s')
    (values : ∀ m ∈ members, IsValue m.value) (writes : List.Forall₂ Member.Writes members ts)
    (elements : Elements first ts body) (enough : ts.length < fuel) :
    namedFields schema fuel first seen s ⟨body ++ 125 :: rest, p⟩ =
      .ok s' ⟨125 :: rest, p.afterAll body⟩ := by
  -- on what the members make of the record; what is written of them is taken apart along with it
  induction takes generalizing ts body first fuel p with
  | @done seen s complete =>
    obtain ⟨fuel, rfl⟩ := Nat.exists_eq_succ_of_ne_zero (Nat.ne_zero_of_lt enough)
    have none : (schema.fields.find? fun f => f.required && !seen.contains f.name) = none := by
      simpa using complete
    cases writes
    cases elements with
    | done blank =>
      rw [namedFields, bind_of_ok (nextMember_done first blank)]
      simp only [Bool.false_eq_true, if_false, none]
      rfl
  | passed named other takes ih =>
    obtain ⟨fuel, rfl⟩ := Nat.exists_eq_succ_of_ne_zero (Nat.ne_zero_of_lt enough)
    cases writes with
    | cons written writes =>
      cases elements with
      | next leads elements =>
        obtain ⟨value, values⟩ := List.forall_mem_cons.1 values
        obtain ⟨w, w', blank, blank', rfl⟩ := written
        simp only [List.append_assoc, List.cons_append, Position.afterAll_append,
          Position.afterAll_cons]
        rw [namedFields_named leads named,
          memberFrom_passed other blank blank' value (elements.closes (.inr rfl)),
          ih values writes elements (Nat.lt_of_succ_lt_succ enough)]
  | set named found new reads takes ih =>
    obtain ⟨fuel, rfl⟩ := Nat.exists_eq_succ_of_ne_zero (Nat.ne_zero_of_lt enough)
    cases writes with
    | cons written writes =>
      cases elements with
      | next leads elements =>
        obtain ⟨-, values⟩ := List.forall_mem_cons.1 values
        obtain ⟨w, w', blank, blank', rfl⟩ := written
        simp only [List.append_assoc, List.cons_append, Position.afterAll_append,
          Position.afterAll_cons]
        rw [namedFields_named leads named,
          memberFrom_set found new reads blank blank' (elements.closes (.inr rfl)),
          ih values writes elements (Nat.lt_of_succ_lt_succ enough)]

theorem takes_of_namedFields (skippable : ∀ f ∈ schema.fields, ∀ s, Skippable (f.read s))
    (keys : ∀ m ∈ members, IsString m.key) (values : ∀ m ∈ members, IsValue m.value)
    (writes : List.Forall₂ Member.Writes members ts) (elements : Elements first ts body)
    {c : Cursor}
    (ok : namedFields schema fuel first seen s ⟨body ++ 125 :: rest, p⟩ = .ok s' c) :
    Takes schema Accepts seen s members s' := by
  -- on the members; the fuel is not counted here, since a run that uses it up fails
  induction writes generalizing seen s body first fuel p with
  | nil =>
    cases fuel with
    | zero => exact absurd ok (fails_failHere _ _ _ _)
    | succ fuel =>
      cases elements with
      | done blank =>
        rw [namedFields, bind_of_ok (nextMember_done first blank)] at ok
        simp only [Bool.false_eq_true, if_false] at ok
        cases missing : schema.fields.find? fun f => f.required && !seen.contains f.name with
        | some f => exact absurd (missing ▸ ok) (fails_failUnplaced _ _ _ _)
        | none =>
          obtain ⟨rfl, -⟩ := pure_eq_ok.1 (missing ▸ ok)
          exact .done (by simpa using missing)
  | @cons m t members ts written writes ih =>
    cases fuel with
    | zero => exact absurd ok (fails_failHere _ _ _ _)
    | succ fuel =>
      cases elements with
      | @next _ lead _ more _ leads elements =>
        obtain ⟨w, w', blank, blank', rfl⟩ := written
        obtain ⟨string, keys⟩ := List.forall_mem_cons.1 keys
        obtain ⟨value, values⟩ := List.forall_mem_cons.1 values
        simp only [List.append_assoc, List.cons_append] at ok
        obtain ⟨name, named⟩ : ∃ name, m.Named name := by
          have ok := (bind_of_ok (nextMember_string string leads)).symm.trans ok
          obtain ⟨name, c₁, read, -⟩ := bind_eq_ok.1 ok
          exact ⟨name, quotes_of_key string read⟩
        rw [namedFields_named leads named] at ok
        rcases memberFrom_eq_ok skippable blank blank' value (elements.closes (.inr rfl)) ok with
          ⟨other, ok⟩ | ⟨f, s₁, found, new, accepts, ok⟩
        · exact .passed named other (ih keys values elements ok)
        · exact .set named found new accepts (ih keys values elements ok)

theorem Takes.named {sets : Reader σ → List UInt8 → σ → Prop}
    (takes : Takes schema sets seen s members s') : ∀ m ∈ members, ∃ name, m.Named name := by
  induction takes with
  | done => exact fun _ member => nomatch member
  | passed named _ _ ih => exact List.forall_mem_cons.2 ⟨⟨_, named⟩, ih⟩
  | set named _ _ _ _ ih => exact List.forall_mem_cons.2 ⟨⟨_, named⟩, ih⟩

theorem not_named_of_found {name' : String} {f : Field σ} (found : schema.field? name = some f)
    (named : m.Named name') (other : schema.field? name' = none) : ¬m.Named name := by
  intro same
  rw [quotes_unique same named, other] at found
  cases found

/-- No field is met twice. -/
theorem Takes.once {sets : Reader σ → List UInt8 → σ → Prop}
    (takes : Takes schema sets seen s members s') {f : Field σ}
    (found : schema.field? name = some f) :
    (name ∈ seen → ∀ m ∈ members, ¬m.Named name) ∧
      members.Pairwise fun m m' => ¬(m.Named name ∧ m'.Named name) := by
  induction takes with
  | done => exact ⟨fun _ _ member => (nomatch member), .nil⟩
  | passed named other _ ih =>
    have differs := not_named_of_found found named other
    refine ⟨fun old => List.forall_mem_cons.2 ⟨differs, ih.1 old⟩, .cons ?_ ih.2⟩
    exact fun _ _ both => differs both.1
  | @set seen _ _ _ m _ name' _ named _ new _ _ ih =>
    by_cases same : name' = name
    · subst same
      have others := ih.1 List.mem_cons_self
      exact ⟨fun old => absurd old new, .cons (fun m' member both => others m' member both.2) ih.2⟩
    · have differs : ¬m.Named name := fun also => same (quotes_unique named also)
      refine ⟨fun old => List.forall_mem_cons.2 ⟨differs, ih.1 (List.mem_cons_of_mem _ old)⟩,
        .cons (fun _ _ both => differs both.1) ih.2⟩

/-- What is observed of a record is as the one member of the name set it, or as it was. -/
theorem Takes.observes {ω : Type} {sets : Reader σ → List UInt8 → σ → Prop} (observe : σ → ω)
    {f : Field σ} (found : schema.field? name = some f)
    (keeps : ∀ g ∈ schema.fields, g.name ≠ name → ∀ s t s₁, sets (g.read s) t s₁ →
      observe s₁ = observe s)
    (takes : Takes schema sets seen s members s') :
    ((∀ m ∈ members, ¬m.Named name) ∧ observe s' = observe s) ∨
      ∃ m ∈ members, (∀ m' ∈ members, m'.Named name ↔ m' = m) ∧
        ∃ s₀ s₁, sets (f.read s₀) m.value s₁ ∧ observe s' = observe s₁ := by
  induction takes with
  | done => exact .inl ⟨fun _ member => (nomatch member), rfl⟩
  | @passed seen s s' m members name' named other _ ih =>
    have differs := not_named_of_found found named other
    rcases ih with ⟨none, same⟩ | ⟨m₁, listed, only, set⟩
    · exact .inl ⟨List.forall_mem_cons.2 ⟨differs, none⟩, same⟩
    · refine .inr ⟨m₁, List.mem_cons_of_mem m listed, List.forall_mem_cons.2 ⟨?_, only⟩, set⟩
      exact iff_of_false differs fun same => differs (same ▸ (only m₁ listed).2 rfl)
  | @set seen s s₁ s' m members name' g named found' new sets' takes ih =>
    by_cases same : name' = name
    · subst same
      obtain rfl : f = g := Option.some.inj (found.symm.trans found')
      have others := (takes.once found).1 List.mem_cons_self
      rcases ih with ⟨none, same⟩ | ⟨m₁, listed, only, -⟩
      · refine .inr ⟨m, List.mem_cons_self, List.forall_mem_cons.2
          ⟨iff_of_true named rfl, fun m' listed => ?_⟩, s, s₁, sets', same⟩
        refine iff_of_false (none m' listed) fun equal => none m' listed (equal ▸ named)
      · exact absurd ((only m₁ listed).2 rfl) (others m₁ listed)
    · have differs : ¬m.Named name := fun also => same (quotes_unique named also)
      obtain ⟨member, rfl⟩ := field?_eq_some found'
      have keep := keeps g member same s m.value s₁ sets'
      rcases ih with ⟨none, same⟩ | ⟨m₁, listed, only, set⟩
      · exact .inl ⟨List.forall_mem_cons.2 ⟨differs, none⟩, same.trans keep⟩
      · refine .inr ⟨m₁, List.mem_cons_of_mem m listed, List.forall_mem_cons.2 ⟨?_, only⟩, set⟩
        exact iff_of_false differs fun same => differs (same ▸ (only m₁ listed).2 rfl)

/-! ## Records told field by field -/

/-- Of a record of which every field may be left out, the members make the part of it that they
tell. -/
theorem takes_of_told (optional : ∀ f ∈ schema.fields, f.required = false)
    (part : List String → σ)
    (once : ∀ f ∈ schema.fields, members.Pairwise fun m m' => ¬(m.Named f.name ∧ m'.Named f.name))
    (told : ∀ f ∈ schema.fields, ∀ m ∈ members, m.Named f.name → ∀ seen,
      Reads (f.read (part seen)) m.value (part (f.name :: seen)))
    (names : ∀ m ∈ members, ∃ name, m.Named name)
    (fresh : ∀ m ∈ members, ∀ name ∈ seen, ¬m.Named name) :
    ∃ seen', Takes schema Reads seen (part seen) members (part seen') ∧
      ∀ f ∈ schema.fields, f.name ∈ seen' ↔ f.name ∈ seen ∨ ∃ m ∈ members, m.Named f.name := by
  induction members generalizing seen with
  | nil =>
    refine ⟨seen, .done fun f member required => ?_, by simp⟩
    exact absurd required (by simp [optional f member])
  | cons m members ih =>
    obtain ⟨⟨name, named⟩, names⟩ := List.forall_mem_cons.1 names
    obtain ⟨new, fresh⟩ := List.forall_mem_cons.1 fresh
    replace ih (seen : List String) := @ih seen
      (fun f member => (List.pairwise_cons.1 (once f member)).2)
      (fun f member m' listed => told f member m' (List.mem_cons_of_mem m listed)) names
    cases found : schema.field? name with
    | none =>
      obtain ⟨seen', takes, met⟩ := ih seen fresh
      refine ⟨seen', .passed named found takes, fun f member => ?_⟩
      have other : ¬m.Named f.name := fun also => by
        have same := List.find?_eq_none.1 found f member
        simp [quotes_unique also named] at same
      simp [met f member, other]
    | some f =>
      obtain ⟨member, rfl⟩ := field?_eq_some found
      have others := (List.pairwise_cons.1 (once f member)).1
      obtain ⟨seen', takes, met⟩ := ih (f.name :: seen) fun m' listed => List.forall_mem_cons.2
        ⟨fun also => others m' listed ⟨named, also⟩, fresh m' listed⟩
      refine ⟨seen', .set named found (fun old => new _ old named)
        (told f member m List.mem_cons_self named seen) takes, fun g member' => ?_⟩
      have this : m.Named g.name ↔ g.name = f.name :=
        ⟨fun also => quotes_unique also named, fun same => same ▸ named⟩
      rw [met g member', List.mem_cons, List.exists_mem_cons_iff, this, or_assoc]
      exact or_left_comm

theorem mem_insert {before after : List Member} {m' : Member} :
    m' ∈ before ++ m :: after ↔ m' = m ∨ m' ∈ before ++ after :=
  List.perm_middle.mem_iff.trans List.mem_cons

theorem pairwise_insert {before after : List Member}
    (once : (before ++ after).Pairwise fun m m' => ¬(m.Named name ∧ m'.Named name))
    (apart : m.Named name → ∀ m' ∈ before ++ after, ¬m'.Named name) :
    (before ++ m :: after).Pairwise fun m m' => ¬(m.Named name ∧ m'.Named name) := by
  refine (List.pairwise_middle fun apart both => apart both.symm).2
    (List.pairwise_cons.2 ⟨fun m' listed both => ?_, once⟩)
  exact apart both.1 m' listed both.2

theorem gives_insert {before after : List Member} {writes : List UInt8 → Prop} {omitted : Prop}
    (gives : Gives (before ++ after) name writes omitted) (other : ¬m.Named name) :
    Gives (before ++ m :: after) name writes omitted where
  once := pairwise_insert gives.once fun named => absurd named other
  written m' listed named := by
    rcases mem_insert.1 listed with rfl | listed
    · exact absurd named other
    · exact gives.written m' listed named
  omitted none := gives.omitted fun m' listed => none m' (mem_insert.2 (.inr listed))

theorem kept {a default : α} {names : List String} {writes : List UInt8 → Prop}
    (gives : Gives members name writes (a = default))
    (told : name ∈ names ↔ ∃ m ∈ members, m.Named name) :
    (if name ∈ names then a else default) = a := by
  by_cases named : name ∈ names
  · exact if_pos named
  · rw [if_neg named, gives.omitted fun m listed given => named (told.2 ⟨m, listed, given⟩)]

/-! ## Whole documents -/

theorem reads_record (takes : Takes schema Reads [] schema.blank members s)
    (values : ∀ m ∈ members, IsValue m.value) (object : IsObject members t) :
    Reads (record schema) t s := by
  obtain ⟨ts, writes, body, elements, rfl⟩ := object
  have opens : ∀ t ∈ ts, Opens t := fun t member => by
    obtain ⟨m, listed, written⟩ := exists_of_forall₂ writes t member
    obtain ⟨name, named⟩ := takes.named m listed
    exact written.opens (Quotes.isString named)
  have shorter := elements.length_le opens
  refine .of_token rfl fun rest p _ => ?_
  rw [List.append_assoc, Position.afterAll_cons, Position.afterAll_append]
  refine (bind_of_ok (advance_cons 123 _ p)).trans
    (closedBy_eq_ok.2 ⟨⟨125 :: rest, (p.after 123).afterAll body⟩, ?_, rfl⟩)
  refine (bind_of_ok (budget_eq_ok.2 ⟨rfl, rfl⟩)).trans
    (namedFields_of_takes takes values writes elements ?_)
  rw [List.length_append]
  omega

theorem run_of_reads {r : Reader α} {a : α} (reads : Reads r t a) (blank : IsBlank w)
    {w' : List UInt8} (blank' : IsBlank w') : run r (w ++ (t ++ w')) = .ok a := by
  have closes : Closes w' := List.append_nil w' ▸ .of_blank blank' closes_nil
  have atEnd (p : Position) : peekToken ⟨w', p⟩ = .ok none ⟨[], p.afterAll w'⟩ := by
    refine peekToken_eq_ok.2 ?_
    rw [← List.append_nil w', Cursor.skipBlank_append blank', List.append_nil]
    exact ⟨rfl, rfl⟩
  have read : document r (Cursor.start (w ++ (t ++ w'))) = .ok a ⟨[], _⟩ :=
    (bind_of_ok (reads w w' _ blank closes)).trans (bind_of_ok (atEnd _))
  unfold run
  rw [read]

theorem run_object (takes : Takes schema Reads [] schema.blank members s)
    (values : ∀ m ∈ members, IsValue m.value) {text : List UInt8}
    (document : Documents (IsObject members) text) : run (record schema) text = .ok s := by
  obtain ⟨w, t, w', blank, blank', object, rfl⟩ := document
  exact run_of_reads (reads_record takes values object) blank blank'

/-- A record is what the fields that the members give make up, if every field may be left out. -/
theorem run_told (optional : ∀ f ∈ schema.fields, f.required = false) (part : List String → σ)
    (blank : part [] = schema.blank)
    (once : ∀ f ∈ schema.fields, members.Pairwise fun m m' => ¬(m.Named f.name ∧ m'.Named f.name))
    (told : ∀ f ∈ schema.fields, ∀ m ∈ members, m.Named f.name → ∀ seen,
      Reads (f.read (part seen)) m.value (part (f.name :: seen)))
    (whole : ∀ seen, (∀ f ∈ schema.fields, f.name ∈ seen ↔ ∃ m ∈ members, m.Named f.name) →
      part seen = s)
    (names : ∀ m ∈ members, ∃ name, m.Named name) (values : ∀ m ∈ members, IsValue m.value)
    {text : List UInt8} (document : Documents (IsObject members) text) :
    run (record schema) text = .ok s := by
  have fresh : ∀ m ∈ members, ∀ name ∈ ([] : List String), ¬m.Named name := by simp
  obtain ⟨seen, takes, met⟩ := takes_of_told optional part once told names fresh
  have all : part seen = s := whole seen fun f member => by simpa using met f member
  rw [blank, all] at takes
  exact run_object takes values document

theorem takes_of_run (skippable : ∀ f ∈ schema.fields, ∀ s, Skippable (f.read s))
    (keys : ∀ m ∈ members, IsString m.key) (values : ∀ m ∈ members, IsValue m.value)
    {text : List UInt8} (document : Documents (IsObject members) text)
    (ok : run (record schema) text = .ok s) : Takes schema Accepts [] schema.blank members s := by
  obtain ⟨w, t, w', blank, blank', ⟨ts, writes, body, elements, rfl⟩, rfl⟩ := document
  obtain ⟨c, read⟩ := run_eq_ok ok
  replace read := (bind_of_ok (peekToken_blank blank rfl)).symm.trans read
  replace read := (bind_of_ok (advance_cons 123 _ _)).symm.trans read
  obtain ⟨c₁, read, -⟩ := closedBy_eq_ok.1 read
  obtain ⟨fuel, c₂, counted, read⟩ := bind_eq_ok.1 read
  obtain ⟨-, rfl⟩ := budget_eq_ok.1 counted
  rw [List.append_eq, List.append_assoc] at read
  exact takes_of_namedFields skippable keys values writes elements read

/-! ## The array form -/

/-- What elements make of a record whose fields stand in this order; the last ones may be
lacking. -/
inductive Fills (sets : Reader σ → List UInt8 → σ → Prop) :
    List (Field σ) → σ → List (List UInt8) → σ → Prop
  | done {fields : List (Field σ)} {s : σ} : Fills sets fields s [] s
  | set {f : Field σ} {fields : List (Field σ)} {s s₁ s' : σ} {t : List UInt8}
      {ts : List (List UInt8)} : sets (f.read s) t s₁ → Fills sets fields s₁ ts s' →
      Fills sets (f :: fields) s (t :: ts) s'

theorem eq_nil_of_closeArray (values : ∀ t ∈ ts, IsValue t) (elements : Elements first ts body)
    {c : Cursor} (closed : closeArray ⟨body ++ 93 :: rest, p⟩ = .ok () c) : ts = [] := by
  cases elements with
  | done => rfl
  | @next _ lead t more ts leads elements =>
    obtain ⟨b, tail, rfl, plain, -, open', -⟩ := (values t List.mem_cons_self).opens
    obtain ⟨token, -⟩ := closeArray_eq_ok closed
    cases leads with
    | first blank =>
      rw [List.append_assoc, Cursor.skipBlank_append blank, List.append_assoc, List.cons_append,
        Cursor.skipBlank_cons plain] at token
      exact absurd (Option.some.inj token) open'
    | later blank _ =>
      rw [List.append_assoc, List.append_assoc, Cursor.skipBlank_append blank, List.cons_append,
        Cursor.skipBlank_cons rfl] at token
      exact absurd (Option.some.inj token) (by decide)

theorem fills_of_positionalFields {fields : List (Field σ)} {index : Nat}
    (skippable : ∀ f ∈ fields, ∀ s, Skippable (f.read s)) (values : ∀ t ∈ ts, IsValue t)
    (elements : Elements (index == 0) ts body) {c c' : Cursor}
    (ok : positionalFields schema fields index s ⟨body ++ 93 :: rest, p⟩ = .ok s' c)
    (closed : closeArray c = .ok () c') : Fills Accepts fields s ts s' := by
  induction fields generalizing index s ts body p with
  | nil =>
    obtain ⟨rfl, rfl⟩ := pure_eq_ok.1 ok
    obtain rfl := eq_nil_of_closeArray values elements closed
    exact .done
  | cons f fields ih =>
    obtain ⟨skip, skippable⟩ := List.forall_mem_cons.1 skippable
    generalize opening : (index == 0) = first at elements
    cases elements with
    | done blank =>
      rw [positionalFields, opening, bind_of_ok (nextElement_done first blank)] at ok
      by_cases required : f.required = true
      · simp only [Bool.false_eq_true, if_false, if_pos required] at ok
        exact absurd ok (fails_failUnplaced _ _ _ _)
      · simp only [Bool.false_eq_true, if_false, if_neg required] at ok
        have others := ih skippable values (.done isBlank_nil) ok
        cases others
        exact .done
    | @next _ lead t more ts leads elements =>
      obtain ⟨value, values⟩ := List.forall_mem_cons.1 values
      rw [positionalFields, opening, List.append_assoc, List.append_assoc,
        bind_of_ok (nextElement_leads leads value.opens)] at ok
      simp only [if_true] at ok
      obtain ⟨s₁, c₁, read, ok⟩ := bind_eq_ok.1 ok
      have closes : Closes (more ++ 93 :: rest) := elements.closes (.inl rfl)
      obtain rfl := (skip s).stops value isBlank_nil closes read
      have later : Elements (index + 1 == 0) ts more := elements
      exact .set ⟨[], _, _, _, isBlank_nil, closes, read⟩ (ih skippable values later ok)

theorem fills_of_run (skippable : ∀ f ∈ schema.fields, ∀ s, Skippable (f.read s))
    (values : ∀ t ∈ ts, IsValue t) {text : List UInt8}
    (document : Documents (Encloses 91 93 ts) text) (ok : run (record schema) text = .ok s) :
    Fills Accepts schema.fields schema.blank ts s := by
  obtain ⟨w, t, w', blank, blank', ⟨body, elements, rfl⟩, rfl⟩ := document
  obtain ⟨c, read⟩ := run_eq_ok ok
  replace read := (bind_of_ok (peekToken_blank blank rfl)).symm.trans read
  replace read := (bind_of_ok (advance_cons 91 _ _)).symm.trans read
  obtain ⟨c₁, read, closed⟩ := closedBy_eq_ok.1 read
  rw [List.append_eq, List.append_assoc] at read
  have opening : Elements (0 == 0) ts body := elements
  exact fills_of_positionalFields skippable values opening read closed

end TextCompletion.Json.Reader
