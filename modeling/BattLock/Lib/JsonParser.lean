import BattLock.Lib.JsonGrammar

/-!
# The parser and the grammar

`json.loads` reads exactly the texts of the grammar (`loads_iff`): what the parser takes is one
(`sound`, by induction on its fuel), and it takes each of them in front of anything that does not
continue a number (`Value.reads`, by induction on the value).
-/

namespace Python.Json

/-! ## Atoms -/

section
variable [Interpreter]

theorem scanNumber_sound {cs literal rest : List Char}
    (h : scanNumber cs = .ok (literal, rest)) : cs = literal ++ rest ∧ Number literal := by
  obtain ⟨hsign, hminus⟩ := scanSign_sound cs
  obtain ⟨hwhole, hnumeral⟩ := scanWhole_sound (scanSign cs).2
  obtain ⟨hfrac, hfraction⟩ := scanFrac_sound (scanWhole (scanSign cs).2).2
  obtain ⟨hexp, hexponent⟩ := scanExp_sound (scanFrac (scanWhole (scanSign cs).2).2).2
  unfold scanNumber at h
  dsimp only at h
  split at h
  · cases h
  rename_i hne
  rw [List.isEmpty_iff] at hne
  split at h
  · cases h
  rename_i hlimit
  simp only [Except.ok.injEq, Prod.mk.injEq] at h
  obtain ⟨rfl, rfl⟩ := h
  constructor
  · rw [List.append_assoc, List.append_assoc, List.append_assoc, ← hexp, ← hfrac, ← hwhole, ← hsign]
  · refine .parts hminus (hnumeral hne) hfraction hexponent fun hfrac hexp => ?_
    by_contra htakes
    exact hlimit ⟨by rw [hfrac]; rfl, by rw [hexp]; rfl, htakes⟩

/-- **A number is read** where nothing continues it. -/
theorem Number.scanNumber {literal rest : List Char} (h : Number literal)
    (hrest : NotStarting Continues rest) : scanNumber (literal ++ rest) = .ok (literal, rest) := by
  cases h with
  | @parts sign whole frac exp hsign hwhole hfrac hexp hlimit =>
    have hafter := hexp.notStarting hrest
    have htext : sign ++ whole ++ frac ++ exp ++ rest =
        sign ++ (whole ++ (frac ++ (exp ++ rest))) := by simp
    obtain ⟨c, cs, hcons, -⟩ := hwhole.eq_cons
    rw [htext, Json.scanNumber, scanSign_append hsign hwhole]
    dsimp only
    rw [hwhole.scanWhole (hfrac.notStarting hafter),
      if_neg (by rw [hcons]; exact Bool.false_ne_true)]
    dsimp only
    rw [hfrac.scanFrac hafter]
    dsimp only
    rw [hexp.scanExp hrest, if_neg]
    rintro ⟨hnofrac, hnoexp, htakes⟩
    exact htakes (hlimit (List.isEmpty_iff.1 hnofrac) (List.isEmpty_iff.1 hnoexp))

theorem scanAtom_sound {cs rest : List Char} {v : Json} (h : scanAtom cs = .ok (v, rest)) :
    ∃ text, cs = text ++ rest ∧ ∀ n, Value n text v := by
  unfold scanAtom at h
  split at h
  · rename_i hword
    cases h
    exact ⟨_, dropWord_eq_some hword, fun _ => .null⟩
  · rename_i hword _
    cases h
    exact ⟨_, dropWord_eq_some hword, fun _ => .bool true⟩
  · rename_i hword _ _
    cases h
    exact ⟨_, dropWord_eq_some hword, fun _ => .bool false⟩
  · split at h
    · rename_i hword
      cases h
      exact ⟨_, dropWord_eq_some hword, fun _ => .constant (by simp)⟩
    · rename_i hword _
      cases h
      exact ⟨_, dropWord_eq_some hword, fun _ => .constant (by simp)⟩
    · rename_i hword _ _
      cases h
      exact ⟨_, dropWord_eq_some hword, fun _ => .constant (by simp)⟩
    · obtain ⟨⟨literal, tail⟩, hnumber, hcont⟩ := bind_eq_ok.1 h
      cases hcont
      obtain ⟨hcs, hliteral⟩ := scanNumber_sound hnumber
      exact ⟨literal, hcs, fun _ => .number hliteral⟩

/-- A number starts with a digit, or with a sign and a digit. -/
theorem Number.eq_cons {literal : List Char} (h : Number literal) :
    ∃ c cs, c.isDigit = true ∧ (literal = c :: cs ∨ literal = '-' :: c :: cs) := by
  cases h with
  | @parts sign whole frac exp hsign hwhole _ _ _ =>
    obtain ⟨c, cs, rfl, hdigit⟩ := hwhole.eq_cons
    rcases hsign with rfl | rfl
    · exact ⟨c, cs ++ frac ++ exp, hdigit, .inl rfl⟩
    · exact ⟨c, cs ++ frac ++ exp, hdigit, .inr rfl⟩

theorem scanAtom_number {literal rest : List Char} (h : Number literal)
    (hrest : NotStarting Continues rest) :
    scanAtom (literal ++ rest) = .ok (number literal, rest) := by
  have hword : ∀ word ∈ ["null", "true", "false", "NaN", "Infinity", "-Infinity"],
      dropWord word (literal ++ rest) = none := by
    obtain ⟨c, cs, hdigit, hcons⟩ := h.eq_cons
    have hne : ∀ d, d.isDigit = false → c ≠ d := by
      rintro d hd rfl
      rw [hdigit] at hd
      cases hd
    intro word hword
    refine dropWord_eq_none fun t ht => ?_
    simp only [List.mem_cons, List.not_mem_nil, or_false] at hword
    rcases hcons with rfl | rfl
    · rcases hword with rfl | rfl | rfl | rfl | rfl | rfl
      · exact hne 'n' rfl (List.cons.inj ht).1
      · exact hne 't' rfl (List.cons.inj ht).1
      · exact hne 'f' rfl (List.cons.inj ht).1
      · exact hne 'N' rfl (List.cons.inj ht).1
      · exact hne 'I' rfl (List.cons.inj ht).1
      · exact hne '-' rfl (List.cons.inj ht).1
    · rcases hword with rfl | rfl | rfl | rfl | rfl | rfl
      · exact absurd (List.cons.inj ht).1 (by decide)
      · exact absurd (List.cons.inj ht).1 (by decide)
      · exact absurd (List.cons.inj ht).1 (by decide)
      · exact absurd (List.cons.inj ht).1 (by decide)
      · exact absurd (List.cons.inj ht).1 (by decide)
      · exact hne 'I' rfl (List.cons.inj (List.cons.inj ht).2).1
  simp only [List.forall_mem_cons] at hword
  obtain ⟨hnull, htrue, hfalse, hnan, hinf, hneg, -⟩ := hword
  rw [scanAtom, hnull, htrue, hfalse]
  dsimp only
  rw [hnan, hinf, hneg]
  dsimp only
  rw [h.scanNumber hrest]
  rfl

/-! ## What the parser takes -/

/-- What a list of items is, as the grammar has it. -/
structure Items (n : Nat) (items : List Item) : Prop where
  ne_nil : items ≠ []
  blank : ∀ i ∈ items, Blank i.before ∧ Blank i.after
  value : ∀ i ∈ items, Value n i.text i.value

structure Members (n : Nat) (members : List MemberText) : Prop where
  ne_nil : members ≠ []
  blank : ∀ m ∈ members, Blank m.before ∧ Chars m.keyText m.key ∧ Blank m.gap ∧
    Blank m.item.before ∧ Blank m.item.after
  value : ∀ m ∈ members, Value n m.item.text m.item.value

section
variable {n : Nat} {ws : List Char}

theorem Items.cons {i : Item} {items : List Item} (h : Items n items)
    (hi : Blank i.before ∧ Blank i.after) (hv : Value n i.text i.value) : Items n (i :: items) :=
  ⟨List.cons_ne_nil _ _, List.forall_mem_cons.2 ⟨hi, h.blank⟩,
    List.forall_mem_cons.2 ⟨hv, h.value⟩⟩

/-- White space in front of the items belongs to the first one. -/
theorem Items.prepend {items : List Item} (h : Items n items) (hws : Blank ws) :
    ∃ items', Items n items' ∧ items'.map Item.value = items.map Item.value ∧
      commas (items'.map Item.chars) = ws ++ commas (items.map Item.chars) := by
  obtain ⟨j, items, rfl⟩ := List.exists_cons_of_ne_nil h.ne_nil
  obtain ⟨⟨hbefore, hafter⟩, hblank⟩ := List.forall_mem_cons.1 h.blank
  obtain ⟨hj, hvalue⟩ := List.forall_mem_cons.1 h.value
  refine ⟨{ j with before := ws ++ j.before } :: items, ⟨List.cons_ne_nil _ _, ?_, ?_⟩, rfl, ?_⟩
  · exact List.forall_mem_cons.2 ⟨⟨hws.append hbefore, hafter⟩, hblank⟩
  · exact List.forall_mem_cons.2 ⟨hj, hvalue⟩
  · simp only [List.map_cons, commas_prepend, Item.chars, List.append_assoc]

theorem Members.cons {m : MemberText} {members : List MemberText} (h : Members n members)
    (hm : Blank m.before ∧ Chars m.keyText m.key ∧ Blank m.gap ∧ Blank m.item.before ∧
      Blank m.item.after)
    (hv : Value n m.item.text m.item.value) : Members n (m :: members) :=
  ⟨List.cons_ne_nil _ _, List.forall_mem_cons.2 ⟨hm, h.blank⟩,
    List.forall_mem_cons.2 ⟨hv, h.value⟩⟩

theorem Members.prepend {members : List MemberText} (h : Members n members) (hws : Blank ws) :
    ∃ members', Members n members' ∧
      members'.map MemberText.member = members.map MemberText.member ∧
      commas (members'.map MemberText.chars) = ws ++ commas (members.map MemberText.chars) := by
  obtain ⟨j, members, rfl⟩ := List.exists_cons_of_ne_nil h.ne_nil
  obtain ⟨⟨hbefore, hparts⟩, hblank⟩ := List.forall_mem_cons.1 h.blank
  obtain ⟨hj, hvalue⟩ := List.forall_mem_cons.1 h.value
  refine ⟨{ j with before := ws ++ j.before } :: members, ⟨List.cons_ne_nil _ _, ?_, ?_⟩, rfl, ?_⟩
  · exact List.forall_mem_cons.2 ⟨⟨hws.append hbefore, hparts⟩, hblank⟩
  · exact List.forall_mem_cons.2 ⟨hj, hvalue⟩
  · simp only [List.map_cons, commas_prepend, MemberText.chars, List.append_assoc]

theorem Items.toValue {items : List Item} (h : Items n items) :
    Value (n + 1) ('[' :: commas (items.map Item.chars) ++ [']']) (array (items.map Item.value)) :=
  .array h.ne_nil h.blank h.value

theorem Members.toValue {members : List MemberText} (h : Members n members) :
    Value (n + 1) ('{' :: commas (members.map MemberText.chars) ++ ['}'])
      (object (members.map MemberText.member)) :=
  .object h.ne_nil h.blank h.value

end

/-- What the three parts of the parser take with some fuel. -/
structure Sound (fuel : Nat) : Prop where
  value : ∀ room cs v rest, scanValue fuel room cs = .ok (v, rest) →
    ∃ text, cs = text ++ rest ∧ Value room text v
  items : ∀ room cs vs rest, scanItems fuel room cs = .ok (vs, rest) →
    ∃ items, Items room items ∧ cs = commas (items.map Item.chars) ++ ']' :: rest ∧
      vs = items.map Item.value
  members : ∀ room cs ms rest, scanMembers fuel room cs = .ok (ms, rest) →
    ∃ members, Members room members ∧
      cs = commas (members.map MemberText.chars) ++ '}' :: rest ∧
      ms = members.map MemberText.member

/-- An array behind its bracket. -/
theorem Sound.array {fuel room : Nat} (h : Sound fuel) {cs rest : List Char} {v : Json}
    (hscan : scanValue (fuel + 1) room ('[' :: cs) = .ok (v, rest)) :
    ∃ text, '[' :: cs = text ++ rest ∧ Value room text v := by
  obtain ⟨ws, hws, hcs⟩ := skipSpace_eq cs
  rw [scanValue, if_neg (by decide), if_pos rfl] at hscan
  cases room with
  | zero => cases hscan
  | succ room =>
    rw [enter, ok_bind] at hscan
    split at hscan
    · rename_i hclose
      cases hscan
      refine ⟨'[' :: ws ++ [']'], ?_, .emptyArray hws⟩
      rw [hcs, hclose]
      simp
    · obtain ⟨⟨vs, tail⟩, hitems, hcont⟩ := bind_eq_ok.1 hscan
      cases hcont
      obtain ⟨items, hgrammar, htext, rfl⟩ := h.items _ _ _ _ hitems
      obtain ⟨items', hgrammar', hvalue, hchars⟩ := hgrammar.prepend hws
      refine ⟨_, ?_, hvalue ▸ hgrammar'.toValue⟩
      rw [hcs, htext, hchars]
      simp

/-- An object behind its brace. -/
theorem Sound.object {fuel room : Nat} (h : Sound fuel) {cs rest : List Char} {v : Json}
    (hscan : scanValue (fuel + 1) room ('{' :: cs) = .ok (v, rest)) :
    ∃ text, '{' :: cs = text ++ rest ∧ Value room text v := by
  obtain ⟨ws, hws, hcs⟩ := skipSpace_eq cs
  rw [scanValue, if_neg (by decide), if_neg (by decide), if_pos rfl] at hscan
  cases room with
  | zero => cases hscan
  | succ room =>
    rw [enter, ok_bind] at hscan
    split at hscan
    · rename_i hclose
      cases hscan
      refine ⟨'{' :: ws ++ ['}'], ?_, .emptyObject hws⟩
      rw [hcs, hclose]
      simp
    · obtain ⟨⟨ms, tail⟩, hmembers, hcont⟩ := bind_eq_ok.1 hscan
      cases hcont
      obtain ⟨members, hgrammar, htext, rfl⟩ := h.members _ _ _ _ hmembers
      obtain ⟨members', hgrammar', hvalue, hchars⟩ := hgrammar.prepend hws
      refine ⟨_, ?_, hvalue ▸ hgrammar'.toValue⟩
      rw [hcs, htext, hchars]
      simp

theorem Sound.value_succ {fuel room : Nat} (h : Sound fuel) {cs rest : List Char} {v : Json}
    (hscan : scanValue (fuel + 1) room cs = .ok (v, rest)) :
    ∃ text, cs = text ++ rest ∧ Value room text v := by
  cases cs with
  | nil => cases hscan
  | cons c cs =>
    by_cases hquote : c = '"'
    · rw [scanValue, if_pos hquote] at hscan
      obtain ⟨⟨s, tail⟩, hstring, hcont⟩ := bind_eq_ok.1 hscan
      cases hcont
      obtain ⟨body, rfl, hbody⟩ := scanString_sound hstring
      exact ⟨'"' :: body ++ ['"'], by simp [hquote], .str hbody⟩
    by_cases hbracket : c = '['
    · rw [hbracket] at hscan ⊢
      exact h.array hscan
    by_cases hbrace : c = '{'
    · rw [hbrace] at hscan ⊢
      exact h.object hscan
    rw [scanValue, if_neg hquote, if_neg hbracket, if_neg hbrace] at hscan
    obtain ⟨text, hcs, hvalue⟩ := scanAtom_sound hscan
    exact ⟨text, hcs, hvalue room⟩

theorem Sound.items_succ {fuel room : Nat} (h : Sound fuel) {cs rest : List Char} {vs : List Json}
    (hscan : scanItems (fuel + 1) room cs = .ok (vs, rest)) :
    ∃ items, Items room items ∧ cs = commas (items.map Item.chars) ++ ']' :: rest ∧
      vs = items.map Item.value := by
  rw [scanItems] at hscan
  obtain ⟨⟨v, tail⟩, hvalue, hcont⟩ := bind_eq_ok.1 hscan
  obtain ⟨text, rfl, hv⟩ := h.value _ _ _ _ hvalue
  obtain ⟨ws, hws, htail⟩ := skipSpace_eq tail
  dsimp only at hcont
  split at hcont
  · -- the last item
    rename_i hclose
    cases hcont
    refine ⟨[⟨[], text, v, ws⟩], ⟨List.cons_ne_nil _ _, ?_, ?_⟩, ?_, rfl⟩
    · exact List.forall_mem_singleton.2 ⟨blank_nil, hws⟩
    · exact List.forall_mem_singleton.2 hv
    · rw [htail, hclose]
      simp [commas, Item.chars]
  · rename_i more hcomma
    obtain ⟨⟨vs', tail'⟩, hitems, hcont⟩ := bind_eq_ok.1 hcont
    cases hcont
    obtain ⟨ws', hws', hmore⟩ := skipSpace_eq more
    obtain ⟨items, hgrammar, htext, rfl⟩ := h.items _ _ _ _ hitems
    obtain ⟨items', hgrammar', hvalues, hchars⟩ := hgrammar.prepend hws'
    refine ⟨⟨[], text, v, ws⟩ :: items', hgrammar'.cons ⟨blank_nil, hws⟩ hv, ?_, ?_⟩
    · rw [List.map_cons, commas_cons _ (by simp [hgrammar'.ne_nil]), hchars, htail, hcomma, hmore,
        htext]
      simp [Item.chars]
    · rw [List.map_cons, hvalues]
  · cases hcont

theorem Sound.members_succ {fuel room : Nat} (h : Sound fuel) {cs rest : List Char}
    {ms : List (Str × Json)} (hscan : scanMembers (fuel + 1) room cs = .ok (ms, rest)) :
    ∃ members, Members room members ∧
      cs = commas (members.map MemberText.chars) ++ '}' :: rest ∧
      ms = members.map MemberText.member := by
  unfold scanMembers at hscan
  split at hscan
  · rename_i cs
    obtain ⟨⟨k, tail⟩, hkey, hcont⟩ := bind_eq_ok.1 hscan
    obtain ⟨keyText, rfl, hchars⟩ := scanString_sound hkey
    obtain ⟨gap, hgap, htail⟩ := skipSpace_eq tail
    dsimp only at hcont
    split at hcont
    · rename_i afterColon hcolon
      obtain ⟨before, hbefore, hafterColon⟩ := skipSpace_eq afterColon
      obtain ⟨⟨v, tail'⟩, hvalue, hcont⟩ := bind_eq_ok.1 hcont
      obtain ⟨text, htext, hv⟩ := h.value _ _ _ _ hvalue
      obtain ⟨ws, hws, htail'⟩ := skipSpace_eq tail'
      have hmember : ('"' :: (keyText ++ '"' :: tail)) =
          MemberText.chars ⟨[], keyText, k, gap, ⟨before, text, v, ws⟩⟩ ++ skipSpace tail' := by
        rw [htail, hcolon, hafterColon, htext, htail']
        simp [MemberText.chars, Item.chars, ← htail']
      dsimp only at hcont
      split at hcont
      · -- the last member
        rename_i hclose
        cases hcont
        refine ⟨[⟨[], keyText, k, gap, ⟨before, text, v, ws⟩⟩], ⟨List.cons_ne_nil _ _, ?_, ?_⟩,
          ?_, rfl⟩
        · exact List.forall_mem_singleton.2 ⟨blank_nil, hchars, hgap, hbefore, hws⟩
        · exact List.forall_mem_singleton.2 hv
        · rw [hmember, hclose]
          rfl
      · rename_i more hcomma
        obtain ⟨⟨ms', tail''⟩, hmembers, hcont⟩ := bind_eq_ok.1 hcont
        cases hcont
        obtain ⟨ws', hws', hmore⟩ := skipSpace_eq more
        obtain ⟨members, hgrammar, htext', rfl⟩ := h.members _ _ _ _ hmembers
        obtain ⟨members', hgrammar', hvalues, hcommas⟩ := hgrammar.prepend hws'
        refine ⟨⟨[], keyText, k, gap, ⟨before, text, v, ws⟩⟩ :: members',
          hgrammar'.cons ⟨blank_nil, hchars, hgap, hbefore, hws⟩ hv, ?_, ?_⟩
        · rw [hmember, List.map_cons, commas_cons _ (by simp [hgrammar'.ne_nil]), hcommas, hcomma,
            hmore, htext']
          simp
        · rw [List.map_cons, hvalues]
          rfl
      · cases hcont
    · cases hcont
  · cases hscan

/-- **What the parser takes is in the grammar.** -/
theorem sound (fuel : Nat) : Sound fuel := by
  induction fuel with
  | zero =>
    constructor
    · intro room cs v rest h
      cases h
    · intro room cs vs rest h
      cases h
    · intro room cs ms rest h
      cases h
  | succ fuel ih =>
    constructor
    · intro room cs v rest hscan
      exact ih.value_succ hscan
    · intro room cs vs rest hscan
      exact ih.items_succ hscan
    · intro room cs ms rest hscan
      exact ih.members_succ hscan

/-! ## What the parser reads -/

/-- No value starts with white space. -/
theorem Value.skipSpace {n : Nat} {text : List Char} {v : Json} (h : Value n text v)
    (rest : List Char) : skipSpace (text ++ rest) = text ++ rest := by
  cases h with
  | null => rfl
  | bool b =>
    cases b with
    | true => rfl
    | false => rfl
  | @constant _ w hw =>
    simp only [List.mem_cons, List.not_mem_nil, or_false] at hw
    rcases hw with rfl | rfl | rfl
    · rfl
    · rfl
    · rfl
  | number h =>
    have hdigit : ∀ c : Char, c.isDigit = true → ¬ IsSpace c := by
      rintro c hc (rfl | rfl | rfl | rfl)
      · exact absurd hc (by decide)
      · exact absurd hc (by decide)
      · exact absurd hc (by decide)
      · exact absurd hc (by decide)
    obtain ⟨c, cs, hc, rfl | rfl⟩ := h.eq_cons
    · exact skipSpace_of_not (hdigit c hc) _
    · rfl
  | str _ => rfl
  | emptyArray _ => rfl
  | array _ _ _ => rfl
  | emptyObject _ => rfl
  | object _ _ _ => rfl

/-- A text is read as a value in front of anything that does not continue a number. -/
def Reads (n : Nat) (text : List Char) (v : Json) : Prop :=
  ∀ fuel room rest, 2 * text.length ≤ fuel → n ≤ room → NotStarting Continues rest →
    scanValue fuel room (text ++ rest) = .ok (v, rest)

/-- The first character takes one unit of the fuel. -/
theorem Reads.of_cons {n : Nat} {c : Char} {cs : List Char} {v : Json}
    (h : ∀ fuel room rest, 2 * cs.length < fuel → n ≤ room → NotStarting Continues rest →
      scanValue (fuel + 1) room (c :: (cs ++ rest)) = .ok (v, rest)) : Reads n (c :: cs) v := by
  intro fuel room rest hfuel hroom hrest
  rw [List.length_cons] at hfuel
  obtain ⟨fuel, rfl⟩ := Nat.exists_eq_succ_of_ne_zero (show fuel ≠ 0 by omega)
  exact h fuel room rest (by omega) hroom hrest

omit [Interpreter] in
/-- White space and a punctuation mark do not continue a number. -/
theorem notStarting_punctuation {ws : List Char} (hws : Blank ws) {c : Char} (hc : ¬ Continues c)
    (rest : List Char) : NotStarting Continues (ws ++ c :: rest) := by
  cases ws with
  | nil =>
    intro d hd
    obtain rfl : c = d := Option.some.inj hd
    exact hc
  | cons w ws =>
    intro d hd
    obtain rfl : w = d := Option.some.inj hd
    rcases hws w List.mem_cons_self with rfl | rfl | rfl | rfl <;> simp [Continues]

section
variable {n fuel room : Nat} (hroom : n ≤ room)
include hroom

/-- The items of an array, behind the white space at their start. -/
theorem Items.scanItems {items : List Item} (h : Items n items)
    (hreads : ∀ i ∈ items, Reads n i.text i.value)
    (hfuel : 2 * (commas (items.map Item.chars)).length < fuel) (rest : List Char) :
    scanItems fuel room (skipSpace (commas (items.map Item.chars) ++ ']' :: rest)) =
      .ok (items.map Item.value, rest) := by
  have hbracket : ¬ Continues ']' := by simp [Continues]
  have hcomma : ¬ Continues ',' := by simp [Continues]
  induction items generalizing fuel with
  | nil => exact absurd rfl h.ne_nil
  | cons i items ih =>
    obtain ⟨fuel, rfl⟩ := Nat.exists_eq_succ_of_ne_zero (show fuel ≠ 0 by omega)
    obtain ⟨⟨hbefore, hafter⟩, hblank⟩ := List.forall_mem_cons.1 h.blank
    obtain ⟨hv, hvalue⟩ := List.forall_mem_cons.1 h.value
    obtain ⟨hi, hreads⟩ := List.forall_mem_cons.1 hreads
    cases items with
    | nil =>
      have htext : commas ([i].map Item.chars) ++ ']' :: rest =
          i.before ++ (i.text ++ (i.after ++ ']' :: rest)) := by simp [commas, Item.chars]
      simp only [List.map_cons, List.map_nil, commas, Item.chars, List.length_append] at hfuel
      rw [htext, hbefore.skipSpace, hv.skipSpace, Json.scanItems,
        hi fuel room _ (by omega) hroom (notStarting_punctuation hafter hbracket rest), ok_bind]
      dsimp only
      rw [hafter.skipSpace, skipSpace_of_not (by decide)]
      rfl
    | cons j items =>
      have htext : commas ((i :: j :: items).map Item.chars) ++ ']' :: rest =
          i.before ++ (i.text ++ (i.after ++
            ',' :: (commas ((j :: items).map Item.chars) ++ ']' :: rest))) := by
        simp [commas, Item.chars]
      have hsplit : commas ((i :: j :: items).map Item.chars) =
          i.chars ++ ',' :: commas ((j :: items).map Item.chars) := rfl
      rw [hsplit, List.length_append, List.length_cons, Item.chars, List.length_append,
        List.length_append] at hfuel
      have hlen : 2 * (commas ((j :: items).map Item.chars)).length < fuel := by omega
      have hrest := ih ⟨List.cons_ne_nil _ _, hblank, hvalue⟩ hreads hlen
      rw [htext, hbefore.skipSpace, hv.skipSpace, Json.scanItems,
        hi fuel room _ (by omega) hroom (notStarting_punctuation hafter hcomma _), ok_bind]
      dsimp only
      rw [hafter.skipSpace, skipSpace_of_not (by decide)]
      show (Json.scanItems fuel room _ >>= _) = _
      rw [hrest]
      rfl

/-- The members of an object, behind the white space at their start. -/
theorem Members.scanMembers {members : List MemberText} (h : Members n members)
    (hreads : ∀ m ∈ members, Reads n m.item.text m.item.value)
    (hfuel : 2 * (commas (members.map MemberText.chars)).length < fuel) (rest : List Char) :
    scanMembers fuel room (skipSpace (commas (members.map MemberText.chars) ++ '}' :: rest)) =
      .ok (members.map MemberText.member, rest) := by
  have hbrace : ¬ Continues '}' := by simp [Continues]
  have hcomma : ¬ Continues ',' := by simp [Continues]
  induction members generalizing fuel with
  | nil => exact absurd rfl h.ne_nil
  | cons m members ih =>
    obtain ⟨fuel, rfl⟩ := Nat.exists_eq_succ_of_ne_zero (show fuel ≠ 0 by omega)
    obtain ⟨⟨hbefore, hkey, hgap, hbefore', hafter⟩, hblank⟩ := List.forall_mem_cons.1 h.blank
    obtain ⟨hv, hvalue⟩ := List.forall_mem_cons.1 h.value
    obtain ⟨hm, hreads⟩ := List.forall_mem_cons.1 hreads
    -- the key and the value of the first member, and what stands behind them
    have hfirst : ∀ (c : Char) (tail : List Char), c = '}' ∨ c = ',' →
        2 * m.chars.length ≤ fuel + 1 →
        Json.scanMembers (fuel + 1) room (Json.skipSpace (m.chars ++ c :: tail)) =
          if c = '}' then .ok ([m.member], tail)
          else Json.scanMembers fuel room (Json.skipSpace tail) >>= fun p =>
            .ok (m.member :: p.1, p.2) := by
      intro c tail hmark hlen
      have hc : ¬ Continues c := by rcases hmark with rfl | rfl <;> assumption
      have hspace : ¬ IsSpace c := by rcases hmark with rfl | rfl <;> decide
      have htext : m.chars ++ c :: tail = m.before ++ ('"' :: (m.keyText ++ '"' :: (m.gap ++
          ':' :: (m.item.before ++ (m.item.text ++ (m.item.after ++ c :: tail)))))) := by
        simp [MemberText.chars, Item.chars]
      simp only [MemberText.chars, Item.chars, List.length_append, List.length_cons] at hlen
      rw [htext, hbefore.skipSpace, skipSpace_of_not (by decide), Json.scanMembers,
        hkey.scanString (by omega), ok_bind]
      dsimp only
      rw [hgap.skipSpace, skipSpace_of_not (by decide)]
      show (scanValue fuel room (Json.skipSpace _) >>= _) = _
      rw [hbefore'.skipSpace, hv.skipSpace,
        hm fuel room _ (by omega) hroom (notStarting_punctuation hafter hc tail), ok_bind]
      dsimp only
      rw [hafter.skipSpace, skipSpace_of_not hspace]
      rcases hmark with rfl | rfl <;> rfl
    cases members with
    | nil =>
      have htext : commas ([m].map MemberText.chars) = m.chars := rfl
      rw [htext] at hfuel ⊢
      rw [hfirst '}' rest (.inl rfl) (by omega)]
      rfl
    | cons j members =>
      have hsplit : commas ((m :: j :: members).map MemberText.chars) =
          m.chars ++ ',' :: commas ((j :: members).map MemberText.chars) := rfl
      rw [hsplit, List.length_append, List.length_cons] at hfuel
      have hlen : 2 * (commas ((j :: members).map MemberText.chars)).length < fuel := by omega
      have hrest := ih ⟨List.cons_ne_nil _ _, hblank, hvalue⟩ hreads hlen
      rw [hsplit, List.append_assoc, List.cons_append,
        hfirst ',' _ (.inr rfl) (by omega), if_neg (by decide), hrest]
      rfl

end

/-- A closing bracket is no value. -/
theorem scanItems_bracket (fuel room : Nat) (rest : List Char) :
    scanItems fuel room (']' :: rest) = .error .jsonDecodeError := by
  cases fuel with
  | zero => rfl
  | succ fuel =>
    cases fuel with
    | zero => rfl
    | succ fuel => rfl

theorem scanMembers_brace (fuel room : Nat) (rest : List Char) :
    scanMembers fuel room ('}' :: rest) = .error .jsonDecodeError := by
  cases fuel with
  | zero => rfl
  | succ fuel => rfl

/-- A text that starts neither a string nor an array nor an object. -/
theorem Reads.of_atom {n : Nat} {c : Char} {cs text : List Char} {v : Json} (htext : text = c :: cs)
    (hc : c ≠ '"' ∧ c ≠ '[' ∧ c ≠ '{')
    (hatom : ∀ rest, NotStarting Continues rest → scanAtom (text ++ rest) = .ok (v, rest)) :
    Reads n text v := by
  subst htext
  refine .of_cons fun fuel room rest _ _ hrest => ?_
  rw [scanValue, if_neg hc.1, if_neg hc.2.1, if_neg hc.2.2, ← List.cons_append, hatom rest hrest]

theorem Number.reads {n : Nat} {literal : List Char} (h : Number literal) :
    Reads n literal (number literal) := by
  have hatom : ∀ rest, NotStarting Continues rest →
      scanAtom (literal ++ rest) = .ok (number literal, rest) := fun rest hrest =>
    scanAtom_number h hrest
  obtain ⟨c, cs, hc, hcons⟩ := h.eq_cons
  have hne : ∀ d : Char, d.isDigit = false → c ≠ d := by
    rintro d hd rfl
    rw [hc] at hd
    cases hd
  rcases hcons with hcons | hcons
  · exact .of_atom hcons ⟨hne _ rfl, hne _ rfl, hne _ rfl⟩ hatom
  · exact .of_atom hcons (by decide) hatom

theorem Chars.reads {n : Nat} {cs : List Char} {s : Str} (h : Chars cs s) :
    Reads n ('"' :: cs ++ ['"']) (str s) := by
  rw [List.cons_append]
  refine .of_cons fun fuel room rest hfuel _ _ => ?_
  rw [List.length_append] at hfuel
  rw [scanValue, if_pos rfl, List.append_assoc, List.singleton_append, h.scanString (by omega)]
  rfl

/-- An array or an object, if it is read with one of them less to open behind its bracket. -/
theorem Reads.of_bracketed {n : Nat} {o c : Char} {cs : List Char} {v : Json}
    (h : ∀ fuel room rest, 2 * cs.length < fuel → n ≤ room →
      scanValue (fuel + 1) (room + 1) (o :: (cs ++ c :: rest)) = .ok (v, rest)) :
    Reads (n + 1) (o :: cs ++ [c]) v := by
  rw [List.cons_append]
  refine .of_cons fun fuel room rest hfuel hroom _ => ?_
  obtain ⟨room, rfl⟩ := Nat.exists_eq_succ_of_ne_zero (show room ≠ 0 by omega)
  rw [List.length_append] at hfuel
  rw [List.append_assoc, List.singleton_append]
  exact h fuel room rest (by omega) (by omega)

theorem Items.reads {n : Nat} {items : List Item} (h : Items n items)
    (hreads : ∀ i ∈ items, Reads n i.text i.value) :
    Reads (n + 1) ('[' :: commas (items.map Item.chars) ++ [']'])
      (array (items.map Item.value)) := by
  refine .of_bracketed fun fuel room rest hfuel hroom => ?_
  have hscan := h.scanItems hroom hreads hfuel rest
  rw [scanValue, if_neg (by decide), if_pos rfl, enter, ok_bind]
  split
  · rename_i hclose
    rw [hclose, scanItems_bracket] at hscan
    cases hscan
  · rw [hscan]
    rfl

theorem Members.reads {n : Nat} {members : List MemberText} (h : Members n members)
    (hreads : ∀ m ∈ members, Reads n m.item.text m.item.value) :
    Reads (n + 1) ('{' :: commas (members.map MemberText.chars) ++ ['}'])
      (object (members.map MemberText.member)) := by
  refine .of_bracketed fun fuel room rest hfuel hroom => ?_
  have hscan := h.scanMembers hroom hreads hfuel rest
  rw [scanValue, if_neg (by decide), if_neg (by decide), if_pos rfl, enter, ok_bind]
  split
  · rename_i hclose
    rw [hclose, scanMembers_brace] at hscan
    cases hscan
  · rw [hscan]
    rfl

/-- **What is in the grammar is read.** -/
theorem Value.reads {n : Nat} {text : List Char} {v : Json} (h : Value n text v) :
    Reads n text v := by
  induction h with
  | null =>
    have htext : "null".toList = 'n' :: "ull".toList := rfl
    exact .of_atom htext (by decide) fun _ _ => rfl
  | bool b =>
    have hfalse : "false".toList = 'f' :: "alse".toList := rfl
    have htrue : "true".toList = 't' :: "rue".toList := rfl
    cases b with
    | false => exact .of_atom hfalse (by decide) fun _ _ => rfl
    | true => exact .of_atom htrue (by decide) fun _ _ => rfl
  | constant hw =>
    have hnan : "NaN".toList = 'N' :: "aN".toList := rfl
    have hinf : "Infinity".toList = 'I' :: "nfinity".toList := rfl
    have hneg : "-Infinity".toList = '-' :: "Infinity".toList := rfl
    simp only [List.mem_cons, List.not_mem_nil, or_false] at hw
    rcases hw with rfl | rfl | rfl
    · exact .of_atom hnan (by decide) fun _ _ => rfl
    · exact .of_atom hinf (by decide) fun _ _ => rfl
    · exact .of_atom hneg (by decide) fun _ _ => rfl
  | number h => exact h.reads
  | str h => exact h.reads
  | emptyArray h =>
    refine .of_bracketed fun fuel room rest _ _ => ?_
    rw [scanValue, if_neg (by decide), if_pos rfl, enter, ok_bind, h.skipSpace]
    rfl
  | array hne hblank hvalue ih => exact Items.reads ⟨hne, hblank, hvalue⟩ ih
  | emptyObject h =>
    refine .of_bracketed fun fuel room rest _ _ => ?_
    rw [scanValue, if_neg (by decide), if_neg (by decide), if_pos rfl, enter, ok_bind, h.skipSpace]
    rfl
  | object hne hblank hvalue ih => exact Members.reads ⟨hne, hblank, hvalue⟩ ih

/-! ## Texts -/

/-- **The parser reads exactly the texts of the grammar.** -/
theorem loads_iff {text : List Char} {v : Json} : loads text = .ok v ↔ Text text v := by
  constructor
  · intro h
    obtain ⟨⟨v', rest⟩, hscan, hcont⟩ := bind_eq_ok.1 h
    obtain ⟨body, hbody, hvalue⟩ := (sound _).value _ _ _ _ hscan
    obtain ⟨before, hbefore, htext⟩ := skipSpace_eq text
    obtain ⟨after, hafter, hrest⟩ := skipSpace_eq rest
    dsimp only at hcont
    split at hcont
    · rename_i hempty
      cases hcont
      rw [List.isEmpty_iff.1 hempty, List.append_nil] at hrest
      rw [htext, hbody, ← List.append_assoc]
      exact .mk hbefore (hrest ▸ hafter) hvalue
    · cases hcont
  · rintro ⟨hbefore, hafter, hvalue⟩
    rename_i before body after
    have hend : NotStarting Continues after := by
      intro c hc
      have hspace := hafter c (List.mem_of_mem_head? hc)
      rcases hspace with rfl | rfl | rfl | rfl <;> simp [Continues]
    have hskip : skipSpace after = [] := by
      have h := hafter.skipSpace []
      rwa [List.append_nil] at h
    rw [loads, List.append_assoc, hbefore.skipSpace, hvalue.skipSpace,
      hvalue.reads _ _ _ (by simp; omega) (Nat.le_refl _) hend, ok_bind]
    dsimp only
    rw [hskip]
    rfl

end

end Python.Json
