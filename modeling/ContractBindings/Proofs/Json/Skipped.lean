import ContractBindings.Json.Skip
import ContractBindings.Proofs.Json.Tree

/-!
# Values that are passed over

A value that can be read can be passed over, and both end at the same place (`skips_value`). Strings
and numbers are gone through once more by their parts, of which passing over looks at less: the
second half of a surrogate pair is an escape like any other, and no number is too large.

The two differ in how they treat containers. Reading descends into them, while passing over keeps
those that are open in a list. What is shown of a value is therefore said for any such list: it is
passed over in front of whatever goes on behind it (`Skips`), and what goes on there is for the list
to say (`GoesOn`).
-/

namespace ContractBindings.Json

variable {s t rest out : List Char}

/-! ### Strings -/

/-- What the reader of code units has read: the digits of one escape, or those of two. -/
theorem exists_of_readCodeUnits {r : Read Char s} (h : readCodeUnits s = .ok r) :
    ∃ first, readHexQuad s = .ok first ∧ (r.rest = first.rest ∨
      ∃ u second, first.rest = '\\' :: 'u' :: u ∧ readHexQuad u = .ok second ∧
        r.rest = second.rest) := by
  rw [readCodeUnits] at h
  obtain ⟨first, hfirst, h⟩ := exists_of_bind_eq_ok h
  refine ⟨first, hfirst, ?_⟩
  split at h
  case isTrue => cases h
  case isFalse =>
    split at h
    case isTrue =>
      split at h
      case h_1 => cases h
      case h_2 => cases h
      case h_3 u hu =>
        obtain ⟨second, hsecond, h⟩ := exists_of_bind_eq_ok h
        split at h
        case isTrue =>
          have hrest : second.rest = r.rest := congrArg Read.rest (Except.ok.inj h)
          exact .inr ⟨u, second, hu, hsecond, hrest.symm⟩
        case isFalse => cases h
      case h_4 => cases h
      case h_5 => cases h
    case isFalse =>
      cases h
      exact .inl rfl

/-- An escape in front of what is passed over as the rest of a string. -/
theorem skips_backslash {escaped : Read Unit s} (hescaped : skipEscape s = .ok escaped)
    (h : ReadsTo (skipStringChars escaped.rest) () out) :
    ReadsTo (skipStringChars ('\\' :: s)) () out := by
  obtain ⟨r, hr, -, rfl⟩ := h
  rw [skipStringChars, hescaped]
  dsimp only [bind, Except.bind]
  rw [hr]
  exact ⟨(escaped.after r).underHead, rfl, rfl, rfl⟩

theorem skips_hexEscape {quad : Read Nat s} (hquad : readHexQuad s = .ok quad)
    (h : ReadsTo (skipStringChars quad.rest) () out) :
    ReadsTo (skipStringChars ('\\' :: 'u' :: s)) () out := by
  have hescape : skipEscape ('u' :: s) = .ok (quad.underHead.map fun _ ↦ ()) := by
    rw [skipEscape, hquad]
    rfl
  exact skips_backslash hescape h

/-- An escape that is read is passed over. The second half of a surrogate pair is an escape of its
own. -/
theorem skips_escape {escaped : Read Char s} (hescaped : readEscape s = .ok escaped)
    (h : ReadsTo (skipStringChars escaped.rest) () out) :
    ReadsTo (skipStringChars ('\\' :: s)) () out := by
  unfold readEscape at hescaped
  split at hescaped
  case h_1 => cases hescaped
  case h_2 t =>
    obtain ⟨unit, hunit, hescaped⟩ := exists_of_bind_eq_ok hescaped
    cases hescaped
    obtain ⟨first, hfirst, hrest | ⟨u, second, hu, hsecond, hrest⟩⟩ := exists_of_readCodeUnits hunit
    · exact skips_hexEscape hfirst (hrest ▸ h)
    · exact skips_hexEscape hfirst (hu ▸ skips_hexEscape hsecond (hrest ▸ h))
  case h_3 c t hne =>
    split at hescaped
    case h_1 value hvalue =>
      cases hescaped
      have hescape : skipEscape (c :: t) = .ok (.ofHead ()) := by
        rw [skipEscape]
        · simp only [hvalue]
        · exact hne
      exact skips_backslash hescape h
    case h_2 => cases hescaped

/-- **The rest of a string that is read is passed over.** -/
theorem skips_stringChars {cs : List Char} (h : ReadsTo (readStringChars s) cs rest) :
    ReadsTo (skipStringChars s) () rest := by
  obtain ⟨r, h, -, rfl⟩ := h
  induction hlength : s.length using Nat.strongRecOn generalizing s with
  | ind n ih =>
    unfold readStringChars at h
    split at h
    case h_1 => cases h
    case h_2 t =>
      cases h
      rw [skipStringChars]
      exact ⟨_, rfl, rfl, rfl⟩
    case h_3 t =>
      obtain ⟨escaped, hescaped, h⟩ := exists_of_bind_eq_ok h
      obtain ⟨tail, htail, h⟩ := exists_of_bind_eq_ok h
      cases h
      have hshorter : escaped.rest.length < n := by
        have := escaped.shorter
        rw [← hlength, List.length_cons]
        omega
      exact skips_escape hescaped (ih _ hshorter tail htail rfl)
    case h_4 c t hquote hback =>
      split at h
      case isTrue => cases h
      case isFalse hcontrol =>
        obtain ⟨tail, htail, h⟩ := exists_of_bind_eq_ok h
        cases h
        have hshorter : t.length < n := by
          rw [← hlength, List.length_cons]
          omega
        obtain ⟨r, hr, -, hrest⟩ := ih _ hshorter tail htail rfl
        rw [skipStringChars, if_neg hcontrol, hr]
        · exact ⟨r.underHead, rfl, rfl, hrest⟩
        · exact hquote
        · exact hback

theorem skips_string {value : String} (h : ReadsTo (readString s) value rest) :
    ReadsTo (skipStringChars s) () rest := by
  obtain ⟨r, h, -, rfl⟩ := h
  obtain ⟨cs, hcs, h⟩ := exists_of_bind_eq_ok h
  cases h
  exact skips_stringChars ⟨cs, hcs, rfl, rfl⟩

/-! ### Numbers -/

theorem skips_exponent {negative : Bool} {significand : Nat} {exponent : Int} {n : Number}
    (h : ReadsTo (readExponent negative significand exponent s) n rest) :
    ReadsTo (skipExponent s) () rest := by
  obtain ⟨r, h, -, rfl⟩ := h
  rw [readExponent] at h
  split at h
  case h_1 down t ht =>
    split at h
    case h_1 => cases h
    case h_2 c t hsign =>
      split at h
      case isTrue hdigit =>
        have hrest : r.rest = skipDigits t := by
          split at h
          case h_1 =>
            split at h
            case isTrue => cases h
            case isFalse => cases h; rfl
          case h_2 =>
            obtain ⟨n, -, h⟩ := exists_of_bind_eq_ok h
            cases h
            rfl
        rw [skipExponent]
        split
        case h_1 hsign' => rw [hsign] at hsign'; cases hsign'
        case h_2 hsign' =>
          rw [hsign] at hsign'
          cases hsign'
          rw [if_pos hdigit]
          exact ⟨_, rfl, rfl, hrest.symm⟩
      case isFalse => cases h

theorem skips_noExponent {ht : t.length < s.length} (h : startsExponent t = false) :
    ReadsTo (skipOptionalExponent t ht) () t := by
  rw [skipOptionalExponent]
  · exact ⟨_, rfl, rfl, rfl⟩
  · rintro v - rfl -
    cases h
  · rintro v - rfl -
    cases h

theorem skips_optionalExponent {u : List Char} {negative : Bool} {significand : Nat}
    {exponent : Int} {n : Number} {ht : t.length < s.length} {ht' : t.length < u.length}
    (h : ReadsTo (readOptionalExponent negative significand exponent t ht) n rest) :
    ReadsTo (skipOptionalExponent t ht') () rest := by
  obtain ⟨r, h, -, rfl⟩ := h
  unfold readOptionalExponent at h
  split at h
  case h_1 v =>
    obtain ⟨exponent, hexponent, h⟩ := exists_of_bind_eq_ok h
    cases h
    obtain ⟨r, hr, -, hrest⟩ := skips_exponent ⟨exponent, hexponent, rfl, rfl⟩
    rw [skipOptionalExponent, hr]
    exact ⟨_, rfl, rfl, hrest⟩
  case h_2 v =>
    obtain ⟨exponent, hexponent, h⟩ := exists_of_bind_eq_ok h
    cases h
    obtain ⟨r, hr, -, hrest⟩ := skips_exponent ⟨exponent, hexponent, rfl, rfl⟩
    rw [skipOptionalExponent, hr]
    exact ⟨_, rfl, rfl, hrest⟩
  case h_3 hlower hupper =>
    obtain ⟨n, -, h⟩ := exists_of_bind_eq_ok h
    cases h
    refine skips_noExponent ?_
    unfold startsExponent
    split
    case h_1 v => exact (hlower v ht rfl HEq.rfl).elim
    case h_2 v => exact (hupper v ht rfl HEq.rfl).elim
    case h_3 => rfl

theorem skips_afterInteger {u : List Char} {negative : Bool} {significand dropped : Nat}
    {n : Number} {ht : t.length < s.length} {ht' : t.length < u.length}
    (h : ReadsTo (readAfterInteger negative significand dropped t ht) n rest) :
    ReadsTo (skipAfterInteger t ht') () rest := by
  obtain ⟨r, h, -, rfl⟩ := h
  unfold readAfterInteger at h
  split at h
  case h_1 v =>
    obtain ⟨fraction, hfraction, h⟩ := exists_of_bind_eq_ok h
    cases h
    unfold readFraction at hfraction
    split at hfraction
    case h_1 => cases hfraction
    case h_2 c v =>
      split at hfraction
      case isTrue hdigit =>
        rw [skipAfterInteger, if_pos hdigit]
        exact skips_optionalExponent ⟨fraction, hfraction, rfl, rfl⟩
      case isFalse => cases hfraction
  case h_2 hpoint =>
    have hskip : skipAfterInteger t ht' = skipOptionalExponent t ht' := by
      rw [skipAfterInteger]
      · rintro c v - rfl -
        exact hpoint _ ht rfl HEq.rfl
      · rintro - rfl -
        exact hpoint _ ht rfl HEq.rfl
    rw [hskip]
    split at h
    case isTrue hends =>
      cases h
      have hstarts : startsExponent t = false := by simpa using (Bool.and_eq_true_iff.1 hends).2
      exact skips_noExponent hstarts
    case isFalse => exact skips_optionalExponent ⟨r, h, rfl, rfl⟩

theorem skips_magnitude {negative : Bool} {n : Number}
    (h : ReadsTo (readMagnitude negative s) n rest) : ReadsTo (skipMagnitude s) () rest := by
  unfold readMagnitude at h
  split at h
  case h_1 =>
    obtain ⟨r, h, -⟩ := h
    cases h
  case h_2 t =>
    have hhead : (t.head?.map Char.isDigit).getD false = false := by
      rcases t with _ | ⟨c, t⟩
      · rfl
      · dsimp only at h
        split at h
        case isTrue =>
          obtain ⟨r, h, -⟩ := h
          cases h
        case isFalse hdigit => simpa using hdigit
    rw [skipMagnitude, if_pos rfl, hhead, if_neg Bool.false_ne_true]
    rcases t with _ | ⟨c, t⟩
    · exact skips_afterInteger h
    · have hdigit : ¬ c.isDigit = true := by simpa using hhead
      dsimp only at h
      rw [if_neg hdigit] at h
      exact skips_afterInteger h
  case h_3 c t hzero =>
    split at h
    case isTrue hdigit =>
      rw [skipMagnitude, if_neg hzero, if_pos hdigit]
      exact skips_afterInteger h
    case isFalse =>
      obtain ⟨r, h, -⟩ := h
      cases h

/-! ### Scalars -/

theorem skips_scalar {c : Char} {v : Json} (h : ReadsTo (readScalar c t) v rest) :
    ReadsTo (skipScalar c t) () rest := by
  rw [skipScalar]
  cases scalar_of_readsTo h with
  | null h => exact h
  | true h => exact h
  | false h => exact h
  | string h =>
    obtain ⟨r, hr, -, rfl⟩ := skips_string h
    rw [if_neg (by decide), if_neg (by decide), if_neg (by decide), if_pos rfl, hr]
    exact ⟨_, rfl, rfl, rfl⟩
  | number hc hn =>
    rw [if_neg (hc.ne (by decide) rfl), if_neg (hc.ne (by decide) rfl),
      if_neg (hc.ne (by decide) rfl), if_neg (hc.ne (by decide) rfl)]
    by_cases hminus : c = '-'
    · subst hminus
      obtain ⟨r, hr, -, rfl⟩ := hn
      obtain ⟨magnitude, hmagnitude, hr⟩ := exists_of_bind_eq_ok hr
      cases hr
      obtain ⟨r, hr, -, hrest⟩ := skips_magnitude ⟨magnitude, hmagnitude, rfl, rfl⟩
      rw [if_pos rfl, hr]
      exact ⟨_, rfl, rfl, hrest⟩
    · rw [readNumber] at hn
      · rw [if_neg hminus, if_pos (hc.resolve_left hminus)]
        exact skips_magnitude hn
      · exact fun t heq ↦ hminus (List.cons.inj heq).1

/-! ### Containers -/

/-- Behind a value, with the given containers open, passing over ends at `out`: either all of them
end, one behind the other, or the first that does not goes on with another value. -/
inductive GoesOn (open_ : List Container) (t out : List Char) : Prop where
  | ends (left : Rest t) (h : skipEnds t open_ = .ok ([], left)) (hout : left.rest = out) :
    GoesOn open_ t out
  | value (container : Container) (above : List Container) (left : Rest t)
    (h : skipEnds t open_ = .ok (container :: above, left)) (name : Rest left.rest)
    (hname : container.skipName left.rest = .ok name)
    (hvalues : ReadsTo (skipValues (container :: above) name.rest) () out) : GoesOn open_ t out

section GoesOn

variable {open_ above : List Container} {container : Container} {u : List Char}

theorem goesOn_nil (t : List Char) : GoesOn [] t t :=
  .ends (.all t) rfl rfl

theorem goesOn_closing (hend : skipBlanks t = container.closing :: u) (h : GoesOn above u out) :
    GoesOn (container :: above) t out := by
  have hcomma : container.closing ≠ ',' := by cases container <;> decide
  have hends : ∀ {stillOpen left}, skipEnds u above = .ok (stillOpen, left) →
      skipEnds t (container :: above) =
        .ok (stillOpen, ((Read.pastBlanks hend ()).upTo left).left) := by
    intro stillOpen left hleft
    rw [skipEnds]
    split <;> rename_i h <;> rw [hend] at h <;> cases h
    rw [if_neg hcomma, if_pos rfl, hleft]
    rfl
  cases h with
  | ends left h hout => exact .ends _ (hends h) hout
  | value container above left h name hname hvalues =>
    exact .value container above _ (hends h) name hname hvalues

theorem goesOn_comma (hcomma : skipBlanks t = ',' :: u) {name : Rest u}
    (hname : container.skipName u = .ok name)
    (hvalues : ReadsTo (skipValues (container :: above) name.rest) () out) :
    GoesOn (container :: above) t out := by
  refine .value container above (Read.pastBlanks hcomma ()).left ?_ name hname hvalues
  rw [skipEnds]
  split <;> rename_i h <;> rw [hcomma] at h <;> cases h
  rw [if_pos rfl]

/-- A value that is no container, or an empty one, and what stands behind it. -/
theorem skips_of_head_none (hhead : ReadsTo (skipHead s) none t) (h : GoesOn open_ t out) :
    ReadsTo (skipValues open_ s) () out := by
  obtain ⟨head, hhead, hvalue, rfl⟩ := hhead
  rw [skipValues, hhead]
  dsimp only [bind, Except.bind]
  cases h with
  | ends left h hout =>
    simp only [hvalue, h]
    exact ⟨_, rfl, rfl, hout⟩
  | value container above left h name hname hvalues =>
    obtain ⟨r, hr, -, hout⟩ := hvalues
    simp only [hvalue, h, hname, hr]
    exact ⟨_, rfl, rfl, hout⟩

/-- The bracket of a container, and its values. -/
theorem skips_of_head_some (hhead : ReadsTo (skipHead s) (some container) t) {name : Rest t}
    (hname : container.skipName t = .ok name)
    (hvalues : ReadsTo (skipValues (container :: open_) name.rest) () out) :
    ReadsTo (skipValues open_ s) () out := by
  obtain ⟨head, hhead, hvalue, rfl⟩ := hhead
  obtain ⟨r, hr, -, hout⟩ := hvalues
  rw [skipValues, hhead]
  dsimp only [bind, Except.bind]
  simp only [hvalue, pure, Except.pure, Rest.all, hname, hr]
  exact ⟨_, rfl, rfl, hout⟩

end GoesOn

/-! ### Values -/

section Opening

variable {container : Container} {u : List Char} {c : Char}

theorem skipOpening_closing (container : Container) (hend : skipBlanks t = container.closing :: u) :
    ∃ left, container.skipOpening t = .ok (none, left) ∧ left.rest = u := by
  rw [Container.skipOpening]
  split <;> rename_i h <;> rw [hend] at h <;> cases h
  rw [if_pos rfl]
  exact ⟨_, rfl, rfl⟩

theorem skipOpening_of_ne (hfirst : skipBlanks t = c :: u) (hne : c ≠ container.closing) :
    container.skipOpening t = .ok (some container, .all t) := by
  rw [Container.skipOpening]
  split <;> rename_i h <;> rw [hfirst] at h <;> cases h
  rw [if_neg hne]

theorem skipHead_bracket (hfirst : skipBlanks s = '[' :: t) {opened : Option Container}
    {left : Rest t} (h : Container.array.skipOpening t = .ok (opened, left)) :
    ReadsTo (skipHead s) opened left.rest := by
  rw [skipHead]
  split <;> rename_i hskip <;> rw [hfirst] at hskip <;> cases hskip
  case h_2 => rw [h]; exact ⟨_, rfl, rfl, rfl⟩
  case h_4 hne _ => exact (hne rfl).elim

theorem skipHead_brace (hfirst : skipBlanks s = '\x7b' :: t) {opened : Option Container}
    {left : Rest t} (h : Container.object.skipOpening t = .ok (opened, left)) :
    ReadsTo (skipHead s) opened left.rest := by
  rw [skipHead]
  split <;> rename_i hskip <;> rw [hfirst] at hskip <;> cases hskip
  case h_3 => rw [h]; exact ⟨_, rfl, rfl, rfl⟩
  case h_4 _ hne => exact (hne rfl).elim

theorem skipHead_scalar (hfirst : skipBlanks s = c :: t) (harray : c ≠ '[') (hobject : c ≠ '\x7b')
    (h : ReadsTo (skipScalar c t) () rest) : ReadsTo (skipHead s) none rest := by
  obtain ⟨r, hr, -, rfl⟩ := h
  rw [skipHead]
  split <;> rename_i hskip <;> rw [hfirst] at hskip <;> cases hskip
  case h_2 => exact absurd rfl harray
  case h_3 => exact absurd rfl hobject
  case h_4 => rw [hr]; exact ⟨_, rfl, rfl, rfl⟩

/-- Nothing stands in front of an element. -/
theorem skipName_array (s : List Char) : Container.array.skipName s = .ok (.all s) :=
  rfl

/-- The name of a member that is read is passed over. -/
theorem exists_skipName {value : String} (hquote : skipBlanks s = '"' :: t)
    (hname : ReadsTo (readString t) value u) (hcolon : skipBlanks u = ':' :: rest) :
    ∃ name, Container.object.skipName s = .ok name ∧ name.rest = rest := by
  obtain ⟨r, hr, -, rfl⟩ := skips_string hname
  rw [Container.skipName]
  split <;> rename_i h <;> rw [hquote] at h <;> cases h
  case h_1 =>
    rw [hr]
    dsimp only [bind, Except.bind]
    split <;> rename_i h <;> rw [hcolon] at h <;> cases h
    case h_1 => exact ⟨_, rfl, rfl⟩
    case h_3 hne => exact (hne rfl).elim
  case h_3 hne => exact (hne rfl).elim

end Opening

section Values

variable {element : ValueReader Json} {open_ : List Container}

/-- A reader whose values are passed over, in front of whatever goes on behind them. Blanks make no
difference. -/
def Skips (element : ValueReader Json) : Prop :=
  ∀ s v t, ReadsTo (element s) v t → ∀ s', skipBlanks s' = skipBlanks s →
    ∀ open_ out, GoesOn open_ t out → ReadsTo (skipValues open_ s') () out

theorem Skips.elements (h : Skips element) {values : List Json}
    (hvalues : Elements element s values rest) (hout : GoesOn open_ rest out) :
    ∀ s', skipBlanks s' = skipBlanks s → ReadsTo (skipValues (.array :: open_) s') () out := by
  induction hvalues with
  | last hvalue hend =>
    intro s' hs'
    exact h _ _ _ hvalue s' hs' _ _ (goesOn_closing hend hout)
  | next hvalue hcomma _ _ _ ih =>
    intro s' hs'
    exact h _ _ _ hvalue s' hs' _ _
      (goesOn_comma hcomma (skipName_array _) (ih hout _ (skipBlanks_skipBlanks _).symm))

theorem Skips.entries (h : Skips element) {members : List (String × Json)}
    (hmembers : Entries element s members rest) (hout : GoesOn open_ rest out) :
    ∀ s', skipBlanks s' = '"' :: s → ∃ name, Container.object.skipName s' = .ok name ∧
      ReadsTo (skipValues (.object :: open_) name.rest) () out := by
  induction hmembers with
  | last hmember hend =>
    intro s' hs'
    obtain ⟨t, u, hname, hcolon, hvalue⟩ := readsTo_member_iff.1 hmember
    obtain ⟨name, hskip, rfl⟩ := exists_skipName hs' hname hcolon
    exact ⟨name, hskip, h _ _ _ hvalue _ rfl _ _ (goesOn_closing hend hout)⟩
  | next hmember hcomma hquote _ ih =>
    intro s' hs'
    obtain ⟨t, u, hname, hcolon, hvalue⟩ := readsTo_member_iff.1 hmember
    obtain ⟨name, hskip, rfl⟩ := exists_skipName hs' hname hcolon
    obtain ⟨next, hnext, hrest⟩ := ih hout _ hquote
    exact ⟨name, hskip, h _ _ _ hvalue _ rfl _ _ (goesOn_comma hcomma hnext hrest)⟩

/-- **A value that is read is passed over.** -/
theorem skips_readWith (build : List (String × Json) → Json) (levels : Nat) :
    Skips (readWith build levels) := by
  induction levels with
  | zero =>
    intro s v t h s' hs' open_ out hout
    cases readsTo_with_iff.1 h with
    | scalar hfirst harray hobject h =>
      exact skips_of_head_none (skipHead_scalar (hs'.trans hfirst) harray hobject (skips_scalar h))
        hout
  | succ levels ih =>
    intro s v t h s' hs' open_ out hout
    cases readsTo_with_iff.1 h with
    | scalar hfirst harray hobject h =>
      exact skips_of_head_none (skipHead_scalar (hs'.trans hfirst) harray hobject (skips_scalar h))
        hout
    | @array _ _ u _ _ hfirst h =>
      have hopen := hs'.trans hfirst
      obtain ⟨-, hend⟩ | ⟨hnil, hend, hvalues⟩ := readsTo_array_iff.1 h
      · obtain ⟨left, hleft, rfl⟩ := skipOpening_closing .array hend
        exact skips_of_head_none (skipHead_bracket hopen hleft) hout
      · obtain ⟨c, w, hw⟩ := List.exists_cons_of_ne_nil hnil
        have hne : c ≠ Container.array.closing := by
          rintro rfl
          exact hend w hw
        exact skips_of_head_some (skipHead_bracket hopen (skipOpening_of_ne hw hne))
          (skipName_array u) (ih.elements hvalues hout u (skipBlanks_skipBlanks u).symm)
    | @object _ _ u _ _ hfirst h =>
      have hopen := hs'.trans hfirst
      obtain ⟨-, hend⟩ | ⟨w, hquote, hmembers⟩ := readsTo_object_iff.1 h
      · obtain ⟨left, hleft, rfl⟩ := skipOpening_closing .object hend
        exact skips_of_head_none (skipHead_brace hopen hleft) hout
      · obtain ⟨name, hname, hrest⟩ := ih.entries hmembers hout u hquote
        exact skips_of_head_some
          (skipHead_brace hopen (skipOpening_of_ne hquote (by decide))) hname hrest

theorem skips_value {build : List (String × Json) → Json} {levels : Nat} {v : Json}
    (h : ReadsTo (readWith build levels s) v rest) : ReadsTo (skipValue s) () rest :=
  skips_readWith build levels s v rest h s rfl [] rest (goesOn_nil rest)

end Values

end ContractBindings.Json
