import MathProgram.Proofs.Json.Scanner

/-!
# Scanning ends with the nesting balanced

`Scanner.document` takes a value with the counter of the nesting, as `Json.value` reads it with a
room that is handed down. Values, containers and the loops over items and members call each other
without a bound. Each of them comes to an end all the same, because every token uses up a byte: what
holds with fewer bytes left (`ScansBelow`) holds for the inside of a container, and so for a
container, a value, and the rest of the items and members (`scansBelow`).

So the scanner ends on every input, leaves the counter as it was whether it succeeds or not, and
never has more containers open than the greatest nesting allows (`scanning_ends_balanced`).
-/

namespace MathProgram.Json

/-! ## One container, value, item or member -/

namespace Scan

variable {src : List UInt8} {k : ℕ} {s s' : Scan} {room : ℕ}

/-- A room is what the counter leaves. Beyond the limit the counter stops nothing, and the room is
more than what is left of the document by `k` bytes at least. -/
def Allows (src : List UInt8) (k : ℕ) (s : Scan) (room : ℕ) : Prop :=
  s.depth.now + room = maxNesting ∨
    maxNesting < s.depth.now ∧ src.length - s.offset + k ≤ room

/-- There is a room for every state. -/
theorem exists_allows (src : List UInt8) (k : ℕ) (s : Scan) : ∃ room, s.Allows src k room := by
  obtain h | h := Nat.lt_or_ge maxNesting s.depth.now
  · exact ⟨_, .inr ⟨h, le_rfl⟩⟩
  · exact ⟨maxNesting - s.depth.now, .inl (by omega)⟩

/-- A room stays good later on. -/
theorem Allows.later (h : s.Allows src k room) (hkept : Kept src 0 s s') :
    s'.Allows src k room := by
  have hforward := hkept.forward
  have hdepth := hkept.depth
  unfold Allows at h ⊢
  omega

/-- After a token there is a byte to spare. -/
theorem Allows.spare (h : s.Allows src 0 room) (hdepth : s'.depth.now = s.depth.now)
    (hlt : s.offset < s'.offset) (hinside : s'.offset ≤ src.length) : s'.Allows src 1 room := by
  unfold Allows at h ⊢
  omega

/-- A byte to spare may be left unused. -/
theorem Allows.loosen (h : s.Allows src 1 room) : s.Allows src 0 room := by
  unfold Allows at h ⊢
  omega

/-- One level deeper there is one level less of room. -/
theorem Allows.deepen (h : s.Allows src 1 room) (hlimit : s.depth.now ≠ maxNesting) :
    room ≠ 0 ∧ s.deepen.Allows src 0 (room - 1) := by
  unfold Allows at h
  have hdepth : s.deepen.depth.now = s.depth.now + 1 := rfl
  have hoffset : s.deepen.offset = s.offset := rfl
  refine ⟨by omega, ?_⟩
  unfold Allows
  rw [hdepth, hoffset]
  omega

/-- At the limit there is no room. -/
theorem Allows.eq_zero (h : s.Allows src k room) (hlimit : s.depth.now = maxNesting) :
    room = 0 := by
  unfold Allows at h
  omega

/-- A container is one more that is being read. -/
theorem Kept.leave (h : Kept src 0 s.enter s') : Kept src 1 s s'.leave where
  forward := h.forward
  inside := h.inside
  depth := h.depth
  deepest := h.deepest
  active := congrArg (· - 1) h.active
  mostActive hs := by
    have hmost : s'.active.most ≤ max (max s.active.most (s.active.now + 1))
      (s.active.now + 1 + (maxNesting - s.depth.now) + 0) := h.mostActive hs
    show s'.active.most ≤ _
    omega

/-- A container one level deeper counts as that level. -/
theorem Kept.surface (h : Kept src 1 s.deepen s') (hlimit : s.depth.now ≠ maxNesting) :
    Kept src 0 s s'.surface where
  forward := h.forward
  inside := h.inside
  depth := congrArg (· - 1) h.depth
  deepest hs := by
    have hmost : s'.depth.most ≤ max (max s.depth.most (s.depth.now + 1)) maxNesting :=
      h.deepest (show s.depth.now + 1 ≤ maxNesting by omega)
    show s'.depth.most ≤ _
    omega
  active := h.active
  mostActive hs := by
    have hmost : s'.active.most ≤ max s.active.most
      (s.active.now + (maxNesting - (s.depth.now + 1)) + 1) :=
      h.mostActive (show s.depth.now + 1 ≤ maxNesting by omega)
    show s'.active.most ≤ _
    omega

end Scan

/-- With fewer than `n` bytes left values, documents, items and members are taken as the reader
reads them. -/
structure ScansBelow (src : List UInt8) (n : ℕ) : Prop where
  value : ∀ {s : Scan} {room : ℕ} (t : Option Token), s.offset ≤ src.length →
    src.length - s.offset < n → s.Allows src 1 room →
    Scans src 0 (Scanner.valueOf src · t) (Reading.valueFrom room t) s
  items : ∀ {s : Scan} {room : ℕ} (before : List Json) (t : Option Token), s.offset ≤ src.length →
    src.length - s.offset < n → s.Allows src 1 room →
    Scans src 0 (Scanner.itemsFrom src · before t) (Reading.items room before t) s
  members : ∀ {s : Scan} {room : ℕ} (before : List (String × Json)) (t : Option Token),
    s.offset ≤ src.length → src.length - s.offset < n → s.Allows src 1 room →
    Scans src 0 (Scanner.membersFrom src · before t) (Reading.members room before t) s
  document : ∀ {s : Scan} {room : ℕ}, s.offset ≤ src.length → src.length - s.offset < n →
    s.Allows src 0 room → Scans src 0 (Scanner.document src) (Reading.of (Json.value room)) s

section Step

open Scan (Kept)
open Scanner

variable {src : List UInt8} {n : ℕ} {s : Scan} {room : ℕ}

/-- A token, and what comes after it: that has fewer bytes left. -/
theorem Scans.token_bind {α : Type} {next : Option Token → ℕ → Scanner α}
    {y : Option Token → Reading α} (hs : s.offset ≤ src.length)
    (hnone : ∀ s', Kept src 0 s s' → Scans src 0 (next none) (y none) s')
    (hsome : ∀ t s', Kept src 0 s s' → s.offset < s'.offset →
      Scans src 0 (next (some t)) (y (some t)) s') :
    Scans src 0 (fun fuel => token src fuel >>= fun t => next t fuel) (Reading.token >>= y) s := by
  refine (scans_token hs).bind fun t s' hkept hrun => ?_
  cases t with
  | none => exact hnone s' hkept
  | some t =>
    have hlt := Reading.rest_of_token_some hrun
    have hinside := hkept.inside
    rw [Scan.cursor, Scan.cursor, List.length_drop, List.length_drop] at hlt
    exact hsome t s' hkept (by omega)

/-- Without a token there is no value. -/
theorem scans_valueOf_none (hs : s.offset ≤ src.length) :
    Scans src 0 (valueOf src · none) (Reading.fault .unexpectedEnd) s :=
  Scans.succ (fun fuel => by rw [valueOf]) (Scans.fault .unexpectedEnd hs)

/-- Without a token there is no item. -/
theorem scans_items_none (before : List Json) (hs : s.offset ≤ src.length) :
    Scans src 0 (itemsFrom src · before none) (Reading.items room before none) s := by
  refine .succ (fun fuel => by rw [itemsFrom]) (.congr ((scans_valueOf_none hs).bind
    (y := fun _ => Reading.fault .unexpectedEnd) fun v s' _ hrun => ?_) rfl)
  cases hrun

/-- Without a token there is no member. -/
theorem scans_members_none (before : List (String × Json)) (hs : s.offset ≤ src.length) :
    Scans src 0 (membersFrom src · before none) (Reading.members room before none) s :=
  Scans.succ (fun fuel => by rw [membersFrom.eq_def]) (Scans.fault .expectedMemberName hs)

/-- What is inside of a container starts with a token. -/
theorem scans_inside (hbelow : ScansBelow src n) (b : Bracket) (hs : s.offset ≤ src.length)
    (hn : src.length - s.offset ≤ n) (hroom : s.Allows src 0 room) :
    Scans src 0 (inside src · b) (Reading.inside room b) s := by
  have hitems (t : Token) (s' : Scan) (hkept : Kept src 0 s s') (hlt : s.offset < s'.offset) :=
    hbelow.items [] (some t) hkept.inside (by have := hkept.inside; omega)
      (hroom.spare hkept.depth hlt hkept.inside)
  have hmembers (t : Token) (s' : Scan) (hkept : Kept src 0 s s') (hlt : s.offset < s'.offset) :=
    hbelow.members [] (some t) hkept.inside (by have := hkept.inside; omega)
      (hroom.spare hkept.depth hlt hkept.inside)
  cases b with
  | square =>
    refine .succ (fun fuel => by rw [inside]) (.congr (.token_bind hs (fun s' hkept => ?_)
      fun t s' hkept hlt => ?_) (Reading.run_array room _))
    · exact scans_items_none [] hkept.inside
    · cases t with
      | closing b =>
        cases b with
        | square => exact .pure _ hkept.inside
        | curly => exact hitems _ s' hkept hlt
      | opening | comma | colon | scalar => exact hitems _ s' hkept hlt
  | curly =>
    refine .succ (fun fuel => by rw [inside]) (.congr (.token_bind hs (fun s' hkept => ?_)
      fun t s' hkept hlt => ?_) (Reading.run_object room _))
    · exact scans_members_none [] hkept.inside
    · cases t with
      | closing b =>
        cases b with
        | curly => exact .pure _ hkept.inside
        | square => exact hmembers _ s' hkept hlt
      | opening | comma | colon | scalar => exact hmembers _ s' hkept hlt

/-- A change of the state after a computation. -/
theorem Ends.after {α : Type} {act : ℕ → Scanner α} {r : Except ReadError α} {s' : Scan}
    (change : Scan → Scan) (h : Ends act s r s') :
    Ends (fun fuel => Scanner.after change (act fuel)) s r (change s') := by
  obtain ⟨bound, h⟩ := h
  refine ⟨bound, fun fuel hfuel => ?_⟩
  dsimp only
  rw [Scanner.after, h fuel hfuel]
  rfl

/-- A container is what is inside of it, with one more container being read. -/
theorem scans_container (hbelow : ScansBelow src n) (b : Bracket) (hs : s.offset ≤ src.length)
    (hn : src.length - s.offset ≤ n) (hroom : s.Allows src 0 room) :
    Scans src 1 (container src · b) (Reading.inside room b) s := by
  obtain ⟨r, s', hends, hkept, hr⟩ := scans_inside hbelow b (s := s.enter) hs hn hroom
  refine ⟨r, s'.leave, (hends.after Scan.leave).step fun fuel => ?_, hkept.leave, hr⟩
  rw [container]
  rfl

/-- A value is a scalar, or a container one level deeper. -/
theorem scans_valueOf (hbelow : ScansBelow src n) (t : Option Token) (hs : s.offset ≤ src.length)
    (hn : src.length - s.offset ≤ n) (hroom : s.Allows src 1 room) :
    Scans src 0 (valueOf src · t) (Reading.valueFrom room t) s := by
  have hread := Reading.run_valueFrom room (s.cursor src) t
  cases t with
  | none => exact scans_valueOf_none hs
  | some t =>
    cases t with
    | closing | comma | colon =>
      exact .succ (fun fuel => by rw [valueOf.eq_def]) (.congr (.fault .unexpectedToken hs) hread)
    | scalar v => exact .succ (fun fuel => by rw [valueOf]) (.congr (.pure v hs) hread)
    | opening b =>
      have hvalue (fuel : ℕ) : valueOf src (fuel + 1) (some (.opening b)) s =
          (if s.depth.now = maxNesting then fault .nestingTooDeep
            else do
              modify Scan.deepen
              after Scan.surface (container src fuel b) : Scanner Json) s := by
        rw [valueOf]
        rfl
      by_cases hlimit : s.depth.now = maxNesting
      · refine ⟨.error ⟨s.offset, .nestingTooDeep⟩, s, .done fun fuel => ?_, .refl hs, ?_⟩
        · rw [hvalue, if_pos hlimit]
          rfl
        · rw [hread, hroom.eq_zero hlimit]
          rfl
      · obtain ⟨hne, hdeep⟩ := hroom.deepen hlimit
        obtain ⟨r, s', hends, hkept, hr⟩ := scans_container hbelow b (s := s.deepen) hs hn hdeep
        refine ⟨r, s'.surface, (hends.after Scan.surface).step fun fuel => ?_,
          hkept.surface hlimit, ?_⟩
        · rw [hvalue, if_neg hlimit]
          rfl
        · rw [hread]
          dsimp only
          rw [if_neg hne]
          cases b <;> exact hr

/-- A document is a token and the value that starts with it. -/
theorem scans_document (hbelow : ScansBelow src n) (hs : s.offset ≤ src.length)
    (hn : src.length - s.offset ≤ n) (hroom : s.Allows src 0 room) :
    Scans src 0 (document src) (Reading.of (Json.value room)) s := by
  refine .succ (fun fuel => by rw [document]) (.congr (.token_bind hs (fun s' hkept => ?_)
    fun t s' hkept hlt => ?_) (Reading.run_value room _))
  · exact scans_valueOf_none hkept.inside
  · have hinside := hkept.inside
    exact hbelow.value (some t) hinside (by omega) (hroom.spare hkept.depth hlt hinside)

/-- The rest of the items: a value, and after a comma the items that are left then. -/
theorem scans_itemsFrom (hbelow : ScansBelow src n) (before : List Json) (t : Option Token)
    (hs : s.offset ≤ src.length) (hn : src.length - s.offset ≤ n) (hroom : s.Allows src 1 room) :
    Scans src 0 (itemsFrom src · before t) (Reading.items room before t) s := by
  cases t with
  | none => exact scans_items_none before hs
  | some t =>
    refine .succ (fun fuel => by rw [itemsFrom]) (.congr
      ((scans_valueOf hbelow (some t) hs hn hroom).bind fun v s₁ hkept₁ _ => ?_)
      (Reading.run_items room _ before t))
    have hs₁ := hkept₁.inside
    refine .token_bind hs₁ (fun s₂ hkept₂ => .fault _ hkept₂.inside) fun t₁ s₂ hkept₂ hlt₂ => ?_
    have hs₂ := hkept₂.inside
    cases t₁ with
    | comma =>
      refine .token_bind hs₂ (fun s₃ hkept₃ => scans_items_none _ hkept₃.inside)
        fun t₂ s₃ hkept₃ hlt₃ => ?_
      have hforward := hkept₁.forward
      have hs₃ := hkept₃.inside
      exact hbelow.items (v :: before) (some t₂) hs₃ (by omega)
        (((hroom.later hkept₁).later hkept₂).later hkept₃)
    | closing b =>
      cases b with
      | square => exact .pure _ hs₂
      | curly => exact .fault _ hs₂
    | opening | colon | scalar => exact .fault _ hs₂

/-- The rest of the members: a name, a colon and a value, and after a comma the members that are
left then. -/
theorem scans_membersFrom (hbelow : ScansBelow src n) (before : List (String × Json))
    (t : Option Token) (hs : s.offset ≤ src.length) (hn : src.length - s.offset ≤ n)
    (hroom : s.Allows src 1 room) :
    Scans src 0 (membersFrom src · before t) (Reading.members room before t) s := by
  have hread := Reading.run_members room (s.cursor src) before t
  refine .succ (fun fuel => by rw [membersFrom.eq_def]) ?_
  -- Only a text is a name.
  cases t with
  | none => exact .congr (.fault .expectedMemberName hs) hread
  | some t =>
    cases t with
    | opening | closing | comma | colon => exact .congr (.fault .expectedMemberName hs) hread
    | scalar v =>
      cases v with
      | null | bool | int | num | arr | obj => exact .congr (.fault .expectedMemberName hs) hread
      | text name =>
        refine .congr (.token_bind hs (fun s₁ hkept₁ => .fault _ hkept₁.inside)
          fun t₁ s₁ hkept₁ hlt₁ => ?_) hread
        have hs₁ := hkept₁.inside
        cases t₁ with
        | opening | closing | comma | scalar => exact .fault _ hs₁
        | colon =>
          have hroom₁ := hroom.later hkept₁
          refine (hbelow.document hs₁ (by omega) hroom₁.loosen).bind fun v s₂ hkept₂ _ => ?_
          refine .token_bind hkept₂.inside (fun s₃ hkept₃ => .fault _ hkept₃.inside)
            fun t₂ s₃ hkept₃ hlt₃ => ?_
          have hs₃ := hkept₃.inside
          cases t₂ with
          | comma =>
            refine .token_bind hs₃ (fun s₄ hkept₄ => scans_members_none _ hkept₄.inside)
              fun t₃ s₄ hkept₄ hlt₄ => ?_
            have hforward := hkept₂.forward
            have hs₄ := hkept₄.inside
            exact hbelow.members ((name, v) :: before) (some t₃) hs₄ (by omega)
              (((hroom₁.later hkept₂).later hkept₃).later hkept₄)
          | closing b =>
            cases b with
            | curly => exact .pure _ hs₃
            | square => exact .fault _ hs₃
          | opening | colon | scalar => exact .fault _ hs₃

/-! ## All of a document -/

/-- With fewer than `n` bytes left everything is taken as it is read. -/
theorem scansBelow (src : List UInt8) (n : ℕ) : ScansBelow src n := by
  induction n with
  | zero => exact ⟨fun _ _ h => by omega, fun _ _ _ h => by omega, fun _ _ _ h => by omega,
      fun _ h => by omega⟩
  | succ n ih =>
    constructor
    case value => exact fun t hs hn => scans_valueOf ih t hs (by omega)
    case items => exact fun before t hs hn => scans_itemsFrom ih before t hs (by omega)
    case members => exact fun before t hs hn => scans_membersFrom ih before t hs (by omega)
    case document => exact fun hs hn => scans_document ih hs (by omega)

/-- A whole document is taken as it is read, with the greatest nesting at most. -/
theorem ends_parse (src : List UInt8) :
    ∃ s', Ends (parse src) .start (read src) s' ∧ Kept src 0 .start s' := by
  have hstart : Scan.start.offset ≤ src.length := Nat.zero_le _
  have hscans : Scans src 0 (parse src) Reading.document .start := by
    refine (scans_document (scansBelow src src.length) hstart (Nat.sub_le _ _)
      (.inl (Nat.zero_add _))).bind fun v s₁ hkept₁ _ => ?_
    exact .token_bind hkept₁.inside (fun s₂ hkept₂ => .pure _ hkept₂.inside)
      fun t s₂ hkept₂ _ => .fault _ hkept₂.inside
  obtain ⟨r, s', hends, hkept, hr⟩ := hscans
  have hresult : read src = r := by
    have hcursor : (⟨src, 0⟩ : Cursor) = Scan.start.cursor src := rfl
    rw [Reading.read_eq, hcursor, ← hr]
    cases r <;> rfl
  exact ⟨s', hresult ▸ hends, hkept⟩

/-- The scanner comes to an end on every document and from every state inside of it. A token is
refused, or it uses up at least one byte, or there is none left and the end of the document is
reached. Whether a document, a value or a container is taken or refused, the scanner is still inside
of the document, the counter of the nesting is as it was, and it was within the limit all the way
(`Scan.Kept`). A whole document is taken just as it is read, with no more containers open at a time
than the greatest nesting. -/
theorem scanning_ends_balanced (src : List UInt8) (s : Scan) (hs : s.offset ≤ src.length) :
    (∃ r s', Ends (token src) s r s' ∧ Kept src 0 s s' ∧
      (r = .ok none → s'.offset = src.length) ∧
      (∀ t, r = .ok (some t) → s.offset < s'.offset)) ∧
    (∃ r s', Ends (document src) s r s' ∧ Kept src 0 s s') ∧
    (∀ t, ∃ r s', Ends (valueOf src · t) s r s' ∧ Kept src 0 s s') ∧
    (∀ b, ∃ r s', Ends (container src · b) s r s' ∧ Kept src 1 s s') ∧
    ∃ s', Ends (parse src) .start (read src) s' ∧ s'.depth.now = 0 ∧
      s'.depth.most ≤ maxNesting ∧ s'.active.most ≤ maxNesting := by
  have hbelow := scansBelow src src.length
  have hn : src.length - s.offset ≤ src.length := Nat.sub_le _ _
  obtain ⟨room, hroom⟩ := s.exists_allows src 1
  refine ⟨token_progress hs, ?_, fun t => ?_, fun b => ?_, ?_⟩
  · obtain ⟨r, s', hends, hkept, -⟩ := scans_document hbelow hs hn hroom.loosen
    exact ⟨r, s', hends, hkept⟩
  · obtain ⟨r, s', hends, hkept, -⟩ := scans_valueOf hbelow t hs hn hroom
    exact ⟨r, s', hends, hkept⟩
  · obtain ⟨r, s', hends, hkept, -⟩ := scans_container hbelow b hs hn hroom.loosen
    exact ⟨r, s', hends, hkept⟩
  · obtain ⟨s', hends, hkept⟩ := ends_parse src
    have hdeepest : s'.depth.most ≤ max 0 maxNesting := hkept.deepest (Nat.zero_le _)
    have hactive : s'.active.most ≤ max 0 (0 + (maxNesting - 0) + 0) :=
      hkept.mostActive (Nat.zero_le _)
    exact ⟨s', hends, hkept.depth, by omega, by omega⟩

/-- A bracket that is never closed, five levels deep. -/
theorem scanning_ends_balanced_unclosed :
    ∃ r s', Ends (document [byte '[']) ⟨0, ⟨5, 5⟩, ⟨5, 5⟩⟩ r s' ∧ s'.offset ≤ 1 ∧
      s'.depth.now = 5 ∧ s'.depth.most ≤ 64 ∧ s'.active.most ≤ 64 := by
  obtain ⟨-, ⟨r, s', hends, hkept⟩, -⟩ :=
    scanning_ends_balanced [byte '['] ⟨0, ⟨5, 5⟩, ⟨5, 5⟩⟩ (Nat.zero_le _)
  exact ⟨r, s', hends, hkept.inside, hkept.depth, hkept.deepest (by decide),
    hkept.mostActive (by decide)⟩

end Step

end MathProgram.Json
