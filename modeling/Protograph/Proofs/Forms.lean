/-
  Protograph.Proofs.Forms — which values have a set of flags written in them.

  Proved:
  - `Json.finishes_written`: a JSON value has one of the forms if it is the value of that form.
  - `Yaml.finishes_written`: a node of a YAML document has one if, with its alias followed, it is a
    number of one byte, a text, or a sequence of texts, none of them with a tag of the
    document's own (`Yaml.Input.Writes`).
  - `sets_readAlike`: in both, filter modes and methods are read alike in all their forms.
-/

import Protograph.Proofs.Masks

namespace Protograph

open RunSource (Finishes FinishesEach finishes_pure finishes_bind finishes_mapM not_finishes_fail)

/-- What is taken from each of some values is taken from all of them. -/
theorem mapM_eq_some_iff_eq_map {α β : Type} {take : α → Option β} {give : β → α}
    (h : ∀ {a b}, take a = some b ↔ a = give b) {as : List α} {bs : List β} :
    as.mapM take = some bs ↔ as = bs.map give := by
  induction as generalizing bs with
  | nil => simp [eq_comm]
  | cons a as ih =>
    simp only [List.mapM_cons, Option.bind_eq_bind, Option.bind_eq_some_iff, Option.pure_def, Option.some.injEq, ih, h]
    constructor
    · rintro ⟨b, rfl, bs, rfl, rfl⟩
      rfl
    · intro h
      obtain ⟨b, bs, rfl, rfl, rfl⟩ := List.map_eq_cons_iff.mp h.symm
      exact ⟨b, rfl, bs, rfl, rfl⟩

/-- A number is one byte if it is that of some bits. -/
theorem byte_eq_some {n : Int} {w : Written} :
    (if 0 ≤ n && n ≤ 255 then some (Written.number (UInt8.ofNat n.toNat)) else none) = some w ↔
      ∃ bits : UInt8, n = bits.toNat ∧ .number bits = w := by
  constructor
  · intro h
    split at h
    · rename_i hbyte
      simp only [Bool.and_eq_true, decide_eq_true_eq] at hbyte
      refine ⟨UInt8.ofNat n.toNat, ?_, Option.some.inj h⟩
      rw [UInt8.toNat_ofNat_of_lt' (by show n.toNat < 256; omega), Int.toNat_of_nonneg hbyte.1]
    · cases h
  · rintro ⟨bits, rfl, rfl⟩
    have hlt : bits.toNat < 256 := bits.toNat_lt
    have hbyte : (decide (0 ≤ (bits.toNat : Int)) && decide ((bits.toNat : Int) ≤ 255)) = true := by
      simp only [Bool.and_eq_true, decide_eq_true_eq]
      omega
    rw [if_pos hbyte, Int.toNat_natCast, UInt8.ofNat_toNat]

/-! ## JSON -/

namespace Json

/-- The value of a form. -/
def ofWritten : Written → Json
  | .number bits => .int bits.toNat
  | .joined text => .str text
  | .names names => .arr (names.map .str)

theorem text?_eq_some {v : Json} {text : String} : v.text? = some text ↔ v = .str text := by
  cases v <;> simp [text?]

theorem areWhole_map_str (names : List String) : areWhole (names.map .str) = true := by
  induction names with
  | nil => rfl
  | cons n names ih => rw [List.map_cons, areWhole, ih]; rfl

theorem isWhole_ofWritten (w : Written) : (ofWritten w).isWhole = true := by
  cases w with
  | names names => exact areWhole_map_str names
  | _ => rfl

theorem written?_eq_some {v : Json} {w : Written} : v.written? = some w ↔ v = ofWritten w := by
  cases v with
  | int n =>
    rw [written?, byte_eq_some]
    cases w <;> simp [ofWritten]
  | str text => cases w <;> simp [written?, ofWritten]
  | arr items =>
    rw [written?]
    simp only [Option.map_eq_some_iff, mapM_eq_some_iff_eq_map text?_eq_some]
    cases w <;> simp [ofWritten]
  | _ => cases w <;> simp [written?, ofWritten]

/-- What is written in a value; nothing is kept beside it. -/
def Input.Writes (i : Input) (_ : Unit) (w : Written) (_ : Unit) : Prop := i.value = ofWritten w

theorem finishes_written (i : Input) (s : Unit) (w : Written) (s' : Unit) :
    Finishes Input (Source.written i) s (some w) s' ↔ i.Writes s w s' := by
  show (if i.value.isWhole = true then Except.ok i.value.written? else .error ReadError.malformed) = .ok (some w) ↔
    i.value = ofWritten w
  constructor
  · intro h
    split at h
    · exact written?_eq_some.mp (Except.ok.inj h)
    · cases h
  · intro h
    rw [h, if_pos (isWhole_ofWritten w), written?_eq_some.mpr rfl]

end Json

/-! ## YAML -/

namespace Yaml

/-! ### Nodes and what is written in them -/

/-- An alias is followed, and counted, to the node that it stands for. Any other value is there
    itself. -/
inductive Follows (s : Stream) : Option Node → Nat → Option Node → Nat → Prop
  | here {node : Option Node} {n : Nat} : (∀ a, node ≠ some (.alias a)) → Follows s node n node n
  | followed {a n : Nat} {node : Node} : n + 1 ≤ s.events * 100 → s.target? a = some node →
    Follows s (some (.alias a)) n (some node) (n + 1)

/-- A scalar, with no tag of the document's own, that is found to be this. -/
def IsScalar (node : Option Node) (f : Found) : Prop :=
  ∃ tag style t, node = some (.scalar tag style t) ∧ localTag? tag = none ∧ foundScalar tag style t = .ok f

/-- The items of a sequence are these texts, with their aliases followed one after another. -/
inductive AreTexts (s : Stream) : List Node → Nat → List String → Nat → Prop
  | nil {n : Nat} : AreTexts s [] n [] n
  | cons {item : Node} {items : List Node} {node : Option Node} {text : String} {texts : List String} {n k n' : Nat} :
    Follows s (some item) n node k → IsScalar node (.text text) → AreTexts s items k texts n' →
    AreTexts s (item :: items) n (text :: texts) n'

/-- What is written in a value, with so many aliases followed before and after. -/
inductive Input.Writes (i : Input) : Nat → Written → Nat → Prop
  | number {node : Option Node} {bits : UInt8} {n n' : Nat} : Follows i.stream i.node n node n' →
    IsScalar node (.int bits.toNat) → Writes i n (.number bits) n'
  | joined {node : Option Node} {text : String} {n n' : Nat} : Follows i.stream i.node n node n' →
    IsScalar node (.text text) → Writes i n (.joined text) n'
  | names {tag : Option String} {items : List Node} {names : List String} {n k n' : Nat} :
    Follows i.stream i.node n (some (.sequence tag items)) k → localTag? tag = none → 0 < i.depth →
    AreTexts i.stream items k names n' → Writes i n (.names names) n'

/-! ### Contents -/

theorem target_of_not_alias {i : Input} (h : ∀ a, i.node ≠ some (.alias a)) : i.target = pure i := by
  unfold Input.target
  split
  · exact absurd ‹_› (h _)
  · rfl

theorem finishes_target_alias {i i' : Input} {a n n' : Nat} (h : i.node = some (.alias a)) :
    Finishes Input i.target n i' n' ↔ n + 1 ≤ i.stream.events * 100 ∧
      ∃ node, i.stream.target? a = some node ∧ { i with node := some node } = i' ∧ n + 1 = n' := by
  have hrun : i.target n = if n + 1 > i.stream.events * 100 then .error (.invalid .tooManyRepetitions none)
      else (i.stream.target? a).elim (.error .malformed) fun node => .ok ({ i with node := some node }, n + 1) := by
    unfold Input.target
    rw [h]
    show (if n + 1 > i.stream.events * 100 then _ else _ : Read Input) (n + 1) = _
    split
    · rfl
    · cases i.stream.target? a <;> rfl
  show i.target n = .ok (i', n') ↔ _
  rw [hrun, ← Nat.not_lt]
  split
  · simp_all
  · cases i.stream.target? a <;> simp_all

theorem finishes_target {i i' : Input} {n n' : Nat} :
    Finishes Input i.target n i' n' ↔ ∃ node, Follows i.stream i.node n node n' ∧ { i with node } = i' := by
  by_cases halias : ∃ a, i.node = some (.alias a)
  · obtain ⟨a, ha⟩ := halias
    rw [finishes_target_alias ha]
    constructor
    · rintro ⟨hle, node, hnode, rfl, rfl⟩
      exact ⟨some node, ha ▸ .followed hle hnode, rfl⟩
    · rintro ⟨node, hfollows, rfl⟩
      rw [ha] at hfollows
      cases hfollows with
      | here hnone => exact absurd rfl (hnone a)
      | followed hle hnode => exact ⟨hle, _, hnode, rfl, rfl⟩
  · have hnone : ∀ a, i.node ≠ some (.alias a) := fun a ha => halias ⟨a, ha⟩
    rw [target_of_not_alias hnone, finishes_pure]
    constructor
    · rintro ⟨rfl, rfl⟩
      exact ⟨i.node, .here hnone, rfl⟩
    · rintro ⟨node, hfollows, rfl⟩
      generalize hi : i.node = start at hfollows
      cases hfollows with
      | here => exact ⟨by rw [← hi], rfl⟩
      | followed => exact absurd hi (hnone _)

/-- The scalars that matter: numbers and texts. -/
inductive Content.Shows : Content → Found → Prop
  | number {k : Int} : Shows (.number k) (.int k)
  | text {t : String} : Shows (.text t) (.text t)

/-- What is in a value where that is a number, a text or a list. -/
inductive Holds (i : Input) (depth n : Nat) : Content → Nat → Prop
  | scalar {node : Option Node} {f : Found} {c : Content} {n' : Nat} : Follows i.stream i.node n node n' →
    IsScalar node f → c.Shows f → Holds i depth n c n'
  | list {tag : Option String} {items : List Node} {cs : List Content} {inner k n' : Nat} :
    Follows i.stream i.node n (some (.sequence tag items)) k → localTag? tag = none → depth = inner + 1 →
    FinishesEach Input (fun e : Node × Nat =>
      Input.content inner { i with node := some e.1, place := i.place.item e.2 }) items.zipIdx k cs n' →
    Holds i depth n (.list cs) n'

theorem finishes_scalarContent {i : Input} {tag : Option String} {style : Style} {t : String}
    (hnode : i.node = some (.scalar tag style t)) {n n' : Nat} {c : Content} (hc : c ≠ .other) :
    Finishes Input i.scalarContent n c n' ↔ n = n' ∧ ∃ f, foundScalar tag style t = .ok f ∧ c.Shows f := by
  unfold Input.scalarContent
  rw [hnode]
  dsimp only
  constructor
  · intro h
    split at h
    · exact absurd h not_finishes_fail
    · obtain ⟨rfl, rfl⟩ := finishes_pure.mp h
      exact ⟨rfl, _, ‹_›, .text⟩
    · obtain ⟨rfl, rfl⟩ := finishes_pure.mp h
      exact ⟨rfl, _, ‹_›, .number⟩
    · exact absurd h not_finishes_fail
    · exact absurd (finishes_pure.mp h).1.symm hc
  · rintro ⟨rfl, f, hf, hshows⟩
    rw [hf]
    cases hshows <;> exact finishes_pure.mpr ⟨rfl, rfl⟩

theorem finishes_content {i : Input} {depth n n' : Nat} {c : Content} (hc : c ≠ .other) :
    Finishes Input (i.content depth) n c n' ↔ Holds i depth n c n' := by
  unfold Input.content
  simp only [finishes_bind, finishes_target, finishes_located]
  constructor
  · rintro ⟨_, k, ⟨node, hfollows, rfl⟩, h⟩
    split at h
    · exact absurd h not_finishes_fail
    rename_i htag
    rcases node with _ | ⟨tag, style, t⟩ | ⟨tag, items⟩ | ⟨tag, es⟩ | a
    · exact absurd (finishes_pure.mp h).1.symm hc
    · obtain ⟨rfl, f, hf, hshows⟩ := (finishes_scalarContent rfl hc).mp h
      exact .scalar hfollows ⟨tag, style, t, rfl, by simpa [Input.tag?] using htag, hf⟩ hshows
    · cases depth with
      | zero => exact absurd h not_finishes_fail
      | succ inner =>
        obtain ⟨cs, _, hcs, h⟩ := finishes_bind.mp h
        obtain ⟨rfl, rfl⟩ := finishes_pure.mp h
        exact .list hfollows (by simpa [Input.tag?] using htag) rfl (finishes_mapM.mp hcs)
    -- A mapping is gone through for its faults only.
    · cases depth with
      | zero => exact absurd h not_finishes_fail
      | succ inner =>
        obtain ⟨_, _, _, h⟩ := finishes_bind.mp h
        exact absurd (finishes_pure.mp h).1.symm hc
    · exact absurd (finishes_pure.mp h).1.symm hc
  · intro h
    cases h with
    | scalar hfollows hscalar hshows =>
      obtain ⟨tag, style, t, rfl, htag, hf⟩ := hscalar
      refine ⟨_, _, ⟨_, hfollows, rfl⟩, ?_⟩
      rw [if_neg (by simp [Input.tag?, htag])]
      exact (finishes_scalarContent rfl hc).mpr ⟨rfl, _, hf, hshows⟩
    | list hfollows htag hdepth hitems =>
      subst hdepth
      refine ⟨_, _, ⟨_, hfollows, rfl⟩, ?_⟩
      rw [if_neg (by simp [Input.tag?, htag])]
      exact finishes_bind.mpr ⟨_, _, finishes_mapM.mpr hitems, finishes_pure.mpr ⟨rfl, rfl⟩⟩

/-! ### Forms of contents -/

theorem Content.text?_eq_some {c : Content} {t : String} : c.text? = some t ↔ c = Content.text t := by
  cases c <;> simp [text?]

/-- The content of a form. -/
def Content.ofWritten : Written → Content
  | .number bits => .number bits.toNat
  | .joined t => Content.text t
  | .names names => .list (names.map Content.text)

theorem Content.written?_eq_some {c : Content} {w : Written} : c.written? = some w ↔ c = ofWritten w := by
  cases c with
  | number n =>
    rw [written?, byte_eq_some]
    cases w <;> simp [ofWritten]
  | text t => cases w <;> simp [written?, ofWritten]
  | list cs =>
    rw [written?]
    simp only [Option.map_eq_some_iff, mapM_eq_some_iff_eq_map text?_eq_some]
    cases w <;> simp [ofWritten]
  | other => cases w <;> simp [written?, ofWritten]

/-- A text is in a value if that, with its alias followed, is a scalar found to be it. -/
theorem finishes_content_text {i : Input} {depth n n' : Nat} {t : String} :
    Finishes Input (i.content depth) n (.text t) n' ↔
      ∃ node, Follows i.stream i.node n node n' ∧ IsScalar node (.text t) := by
  rw [finishes_content (by simp)]
  constructor
  · intro h
    cases h with
    | scalar hfollows hscalar hshows =>
      cases hshows
      exact ⟨_, hfollows, hscalar⟩
  · rintro ⟨node, hfollows, hscalar⟩
    exact .scalar hfollows hscalar .text

/-- Contents of items are texts if the items are. Their places make no difference. -/
theorem finishesEach_content_texts {i : Input} {depth : Nat} {items : List Node} {texts : List String}
    {first n n' : Nat} :
    FinishesEach Input (fun e : Node × Nat => Input.content depth { i with node := some e.1, place := i.place.item e.2 })
      (items.zipIdx first) n (texts.map .text) n' ↔ AreTexts i.stream items n texts n' := by
  induction items generalizing texts first n with
  | nil =>
    constructor
    · intro h
      cases texts with
      | nil =>
        cases h
        exact .nil
      | cons => cases h
    · intro h
      cases h
      exact .nil
  | cons item items ih =>
    rw [List.zipIdx_cons]
    constructor
    · intro h
      cases texts with
      | nil => cases h
      | cons text texts =>
        cases h with
        | cons htext htexts =>
          obtain ⟨node, hfollows, hscalar⟩ := finishes_content_text.mp htext
          exact .cons hfollows hscalar (ih.mp htexts)
    · intro h
      cases h with
      | cons hfollows hscalar htexts =>
        exact .cons (finishes_content_text.mpr ⟨_, hfollows, hscalar⟩) (ih.mpr htexts)

theorem finishes_written (i : Input) (n : Nat) (w : Written) (n' : Nat) :
    Finishes Input (Source.written i) n (some w) n' ↔ i.Writes n w n' := by
  have hwritten : Finishes Input (Source.written i) n (some w) n' ↔
      Finishes Input (i.content i.depth) n (.ofWritten w) n' := by
    show Finishes Input (i.content i.depth >>= fun c => pure c.written?) n (some w) n' ↔ _
    simp only [finishes_bind, finishes_pure, Content.written?_eq_some]
    constructor
    · rintro ⟨_, _, h, rfl, rfl⟩
      exact h
    · intro h
      exact ⟨_, _, h, rfl, rfl⟩
  have hmatters : Content.ofWritten w ≠ .other := by cases w <;> simp [Content.ofWritten]
  rw [hwritten, finishes_content hmatters]
  constructor
  · intro h
    generalize hc : Content.ofWritten w = c at h
    cases h with
    | scalar hfollows hscalar hshows =>
      cases hshows <;> cases w <;> cases hc
      · exact .number hfollows hscalar
      · exact .joined hfollows hscalar
    | list hfollows htag hdepth hitems =>
      cases w <;> cases hc
      exact .names hfollows htag (by omega) (finishesEach_content_texts.mp hitems)
  · intro h
    cases h with
    | number hfollows hscalar => exact Holds.scalar hfollows hscalar .number
    | joined hfollows hscalar => exact Holds.scalar hfollows hscalar .text
    | names hfollows htag hdepth htexts =>
      exact Holds.list hfollows htag (Nat.succ_pred_eq_of_pos hdepth).symm (finishesEach_content_texts.mpr htexts)

/-! ### A node for every form -/

theorem foundPlain_byte (bits : UInt8) : foundPlain (toString bits.toNat) = .int bits.toNat := by
  have hbytes : ∀ n : Fin 256, foundPlain (toString n.val) = .int n.val := by decide +kernel
  exact hbytes ⟨bits.toNat, bits.toNat_lt⟩

/-- A node of the form: digits, or texts in quotes. -/
def Node.ofWritten : Written → Node
  | .number bits => .scalar none .plain (toString bits.toNat)
  | .joined text => .scalar none .other text
  | .names names => .sequence none (names.map (.scalar none .other))

theorem areTexts_map_scalar (s : Stream) (n : Nat) (texts : List String) :
    AreTexts s (texts.map (.scalar none .other)) n texts n := by
  induction texts with
  | nil => exact .nil
  | cons text texts ih => exact .cons (.here nofun) ⟨none, .other, text, rfl, rfl, rfl⟩ ih

theorem writes_ofWritten (s : Stream) (p : Place) (n : Nat) (w : Written) :
    Input.Writes ⟨s, some (.ofWritten w), p, 1⟩ n w n := by
  cases w with
  | number bits => exact .number (.here nofun) ⟨none, .plain, _, rfl, rfl, congrArg Except.ok (foundPlain_byte bits)⟩
  | joined text => exact .joined (.here nofun) ⟨none, .other, text, rfl, rfl, rfl⟩
  | names names => exact .names (.here nofun) rfl Nat.one_pos (areTexts_map_scalar s n names)

end Yaml

namespace Reading

/-- Filter modes and methods are read alike in all their forms, of JSON values and of the nodes
    of YAML documents. -/
theorem sets_readAlike : SetsAlike Json.Input.Writes ∧ SetsAlike Yaml.Input.Writes :=
  ⟨setsAlike (fun w => ⟨⟨true, .ofWritten w⟩, (), (), rfl⟩) Json.finishes_written,
    setsAlike (fun w => ⟨_, 0, 0, Yaml.writes_ofWritten ⟨none, [], 0⟩ .root 0 w⟩) Yaml.finishes_written⟩

example (t : Bool) :
    filterModes (⟨t, .str " EQ | |in"⟩ : Json.Input) = filterModes (⟨t, .arr [.str "in", .str "eq"]⟩ : Json.Input) := rfl

example (p : Yaml.Place) :
    filterModes (⟨⟨none, [(0, .scalar none .other "in")], 3⟩, some (.sequence none [.alias 0, .scalar none .other " EQ"]),
      p, 1⟩ : Yaml.Input) 0 = .ok (⟨5⟩, 1) := by cbv

end Reading

end Protograph
