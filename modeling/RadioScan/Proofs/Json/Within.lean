import RadioScan.Proofs.Json.Room

/-!
# Strings within a text

A string read from a text takes no more room, escaped again, than it had there: an escape of one
character is never longer than the way it was spelled (`room_readPieces`, `room_joinPieces`). So
every string in the tree of a text, key or value, whole text or broken, takes at most the bytes of
that text (`within_parse`).
-/

namespace RadioScan.Json

open String (utf8Len)

/-! ## Tokens -/

/-- The room that a piece takes at most once it is a character. -/
def Piece.room : Piece → Nat
  | .char c => utf8Len (escape c)
  | .unit _ => 6

theorem utf8Len_escape_letter {e c : Char} (h : unescape? e = some c) : utf8Len (escape c) ≤ 2 := by
  unfold unescape? at h
  split at h <;> cases h <;> decide

theorem room_readPieces {cs rest : List Char} {ps : List Piece}
    (h : readPieces cs = some (ps, rest)) :
    (ps.map Piece.room).sum + utf8Len rest ≤ utf8Len cs := by
  induction cs using readPieces.induct generalizing ps rest with
  | case1 => simp [readPieces] at h
  | case2 rest' =>
    simp only [readPieces, Option.some.injEq, Prod.mk.injEq] at h
    obtain ⟨rfl, rfl⟩ := h
    rw [String.utf8Len_cons]
    simp
  | case3 a b c d cs ih =>
    simp only [readPieces, Option.bind_eq_bind, Option.bind_eq_some_iff] at h
    obtain ⟨u, -, ⟨qs, r⟩, hr, h⟩ := h
    cases h
    have hrest := ih hr
    have h1 := a.utf8Size_pos
    have h2 := b.utf8Size_pos
    have h3 := c.utf8Size_pos
    have h4 := d.utf8Size_pos
    have h5 : '\\'.utf8Size = 1 ∧ 'u'.utf8Size = 1 := by decide
    simp only [List.map_cons, List.sum_cons, Piece.room, String.utf8Len_cons]
    omega
  | case4 e cs hne ih =>
    rw [readPieces] at h
    · simp only [Option.bind_eq_bind, Option.bind_eq_some_iff] at h
      obtain ⟨c, hc, ⟨qs, r⟩, hr, h⟩ := h
      cases h
      have hrest := ih hr
      have hletter := utf8Len_escape_letter hc
      have h1 := e.utf8Size_pos
      have h2 : '\\'.utf8Size = 1 := rfl
      simp only [List.map_cons, List.sum_cons, Piece.room, String.utf8Len_cons]
      omega
    · exact hne
  | case5 c cs h1 h2 hc hc' =>
    rw [readPieces] at h <;> simp_all
  | case6 c cs hquote h2 hc hc' ih =>
    rw [readPieces] at h
    · simp only [hc', if_false, Option.bind_eq_bind, Option.bind_eq_some_iff] at h
      obtain ⟨⟨qs, r⟩, hr, h⟩ := h
      cases h
      have hrest := ih hr
      rw [not_or, Nat.not_lt] at hc'
      have hplain : escape c = [c] := escape_plain hc'.1 (by simpa using hquote) hc'.2
      simp only [List.map_cons, List.sum_cons, Piece.room, hplain, String.utf8Len_cons,
        String.utf8Len_nil]
      omega
    all_goals assumption

theorem utf8Len_escape_cons (c : Char) (cs : List Char) :
    utf8Len ((c :: cs).flatMap escape) ≤ 6 + utf8Len (cs.flatMap escape) := by
  have hsize := c.utf8Size_le_four
  rw [List.flatMap_cons, String.utf8Len_append]
  rcases escape_eq_or_le_six c with hplain | hsix
  · rw [hplain, String.utf8Len_cons, String.utf8Len_nil]
    omega
  · omega

theorem room_joinPieces {ps : List Piece} {cs : List Char} (h : joinPieces ps = some cs) :
    utf8Len (cs.flatMap escape) ≤ (ps.map Piece.room).sum := by
  induction ps using joinPieces.induct generalizing cs with
  | case1 =>
    cases h
    exact Nat.le_refl 0
  | case2 c ps ih =>
    rw [joinPieces] at h
    obtain ⟨ds, hds, rfl⟩ := Option.map_eq_some_iff.1 h
    have hrest := ih hds
    simp only [List.flatMap_cons, String.utf8Len_append, List.map_cons, List.sum_cons, Piece.room]
    omega
  | case3 u v ps hu hv ih =>
    rw [joinPieces, if_pos hu, if_pos hv] at h
    obtain ⟨ds, hds, rfl⟩ := Option.map_eq_some_iff.1 h
    have hrest := ih hds
    refine (utf8Len_escape_cons _ ds).trans ?_
    simp only [List.map_cons, List.sum_cons, Piece.room]
    omega
  | case4 u v ps hu hv => simp [joinPieces, hu, hv] at h
  | case5 u v ps hu hlow => simp [joinPieces, hu, hlow] at h
  | case6 u v ps hu hlow ih =>
    rw [joinPieces, if_neg hu, if_neg hlow] at h
    obtain ⟨ds, hds, rfl⟩ := Option.map_eq_some_iff.1 h
    have hrest := ih hds
    refine (utf8Len_escape_cons _ ds).trans ?_
    simp only [List.map_cons, List.sum_cons, Piece.room] at hrest ⊢
    omega
  | case7 u ps hne hsurrogate =>
    rw [joinPieces, if_pos hsurrogate] at h
    · cases h
    · exact hne
  | case8 u ps hne hsurrogate ih =>
    rw [joinPieces, if_neg hsurrogate] at h
    · obtain ⟨ds, hds, rfl⟩ := Option.map_eq_some_iff.1 h
      have hrest := ih hds
      refine (utf8Len_escape_cons _ ds).trans ?_
      simp only [List.map_cons, List.sum_cons, Piece.room]
      omega
    · exact hne

/-- The room that the string of a token takes. -/
def Token.room : Token → Nat
  | text (some s) => Json.room s
  | _ => 0

theorem room_readText {cs rest : List Char} {t : Token} (h : readText cs = some (t, rest)) :
    t.room + utf8Len rest ≤ utf8Len cs := by
  obtain ⟨⟨ps, r⟩, hread, h⟩ := Option.map_eq_some_iff.1 h
  cases h
  have hpieces := room_readPieces hread
  cases hjoin : joinPieces ps with
  | none =>
    simp only [Option.map_none, Token.room]
    omega
  | some ds =>
    have hds := room_joinPieces hjoin
    simp only [Option.map_some, Token.room, Json.room, String.toList_ofList]
    omega

/-! ## Numbers -/

theorem suffix_readWhole {cs rest : List Char} {n : Nat} (h : readWhole cs = some (n, rest)) :
    rest <:+ cs := by
  unfold readWhole at h
  split at h
  · cases h
  · cases h
  · cases h
    exact List.dropWhile_suffix _

theorem suffix_readFraction {cs ds rest : List Char} (h : readFraction cs = some (ds, rest)) :
    rest <:+ cs := by
  unfold readFraction at h
  split at h
  · split at h
    · cases h
    · cases h
      exact (List.dropWhile_suffix _).trans (List.suffix_cons _ _)
  · cases h
    exact List.suffix_refl _

theorem suffix_readPower {negative : Bool} {cs rest : List Char} {e : Option Int}
    (h : readPower negative cs = some (e, rest)) : rest <:+ cs := by
  unfold readPower at h
  split at h
  · cases h
  · cases h
    exact List.dropWhile_suffix _

theorem suffix_readExponent {cs rest : List Char} {e : Option Int}
    (h : readExponent cs = some (e, rest)) : rest <:+ cs := by
  unfold readExponent at h
  split at h
  · next c cs =>
    have hletter : cs <:+ c :: cs := List.suffix_cons c cs
    split_ifs at h
    · split at h
      · exact (suffix_readPower h).trans ((List.suffix_cons _ _).trans hletter)
      · exact (suffix_readPower h).trans ((List.suffix_cons _ _).trans hletter)
      · exact (suffix_readPower h).trans hletter
    · cases h
      exact List.suffix_refl _
  · cases h
    exact List.suffix_refl _

theorem suffix_readNumber {negative : Bool} {cs rest : List Char} {t : Token}
    (h : readNumber negative cs = some (t, rest)) : rest <:+ cs ∧ t.room = 0 := by
  simp only [readNumber, Option.bind_eq_bind, Option.bind_eq_some_iff] at h
  obtain ⟨⟨w, cs₁⟩, h₁, ⟨f, cs₂⟩, h₂, ⟨e, cs₃⟩, h₃, h⟩ := h
  cases h
  exact ⟨((suffix_readExponent h₃).trans (suffix_readFraction h₂)).trans (suffix_readWhole h₁), rfl⟩

theorem utf8Len_suffix {cs rest : List Char} (h : rest <:+ cs) : utf8Len rest ≤ utf8Len cs := by
  obtain ⟨front, rfl⟩ := h
  rw [String.utf8Len_append]
  omega

theorem room_readToken {cs rest : List Char} {t : Token} (h : readToken cs = some (t, rest)) :
    t.room + utf8Len rest ≤ utf8Len cs := by
  unfold readToken at h
  split at h
  case h_10 =>
    have htext := room_readText h
    rw [String.utf8Len_cons]
    omega
  case h_11 =>
    obtain ⟨hsuffix, hroom⟩ := suffix_readNumber h
    have hlen := utf8Len_suffix hsuffix
    rw [String.utf8Len_cons]
    omega
  case h_12 =>
    obtain ⟨hsuffix, hroom⟩ := suffix_readNumber h
    have hlen := utf8Len_suffix hsuffix
    omega
  all_goals
    cases h
    simp only [Token.room, String.utf8Len_cons]
    omega

/-- A text has the room for the string of each of its tokens. -/
theorem room_scan {t : Token} {cs : List Char} (h : t ∈ scan cs) : t.room ≤ utf8Len cs := by
  induction cs using scan.induct with
  | case1 cs hblank =>
    rw [scan] at h
    split at h <;> simp_all
  | case2 cs c rest hblank u rest' hread ih =>
    have hdrop := utf8Len_suffix (List.dropWhile_suffix (l := cs) isBlank)
    have htoken := room_readToken hread
    have hscan : scan cs = u :: scan rest' := by
      rw [scan]
      split <;> simp_all
      split <;> simp_all
    rw [hblank] at hdrop
    rw [hscan] at h
    rcases List.mem_cons.1 h with rfl | hmem
    · omega
    · have := ih hmem
      omega
  | case3 cs c rest hblank hread =>
    have hscan : scan cs = [.bad] := by
      rw [scan]
      split <;> simp_all
      split <;> simp_all
    rw [hscan, List.mem_singleton] at h
    rw [h]
    exact Nat.zero_le _

/-! ## Trees -/

/-- Every string in the tree, key or value, takes at most so much room. -/
inductive Within (n : Nat) : Json → Prop
  | null : Within n .null
  | bool (b : Bool) : Within n (.bool b)
  | number (m : Number) : Within n (.number m)
  | text {content : Option String} (h : ∀ s ∈ content, room s ≤ n) : Within n (.text content)
  | array {items : List Json} (h : ∀ j ∈ items, Within n j) : Within n (.array items)
  | object {members : List (Option String × Json)} (hkeys : ∀ m ∈ members, ∀ s ∈ m.1, room s ≤ n)
      (h : ∀ m ∈ members, Within n m.2) : Within n (.object members)
  | broken : Within n .broken

section Reading

variable {n : Nat} {v : Json} {stack : List Frame} {due : Due} {t : Token}

/-- What has been read of an object. -/
def MembersWithin (n : Nat) (members : List (Option String × Json)) : Prop :=
  ∀ m ∈ members, (∀ s ∈ m.1, room s ≤ n) ∧ Within n m.2

theorem within_reverse {members : List (Option String × Json)} (h : MembersWithin n members) :
    Within n (object members.reverse) :=
  .object (fun m hm => (h m (List.mem_reverse.1 hm)).1) fun m hm => (h m (List.mem_reverse.1 hm)).2

theorem within_array_reverse {items : List Json} (h : ∀ j ∈ items, Within n j) :
    Within n (array items.reverse) :=
  .array fun j hj => h j (List.mem_reverse.1 hj)

def Frame.Within (n : Nat) : Frame → Prop
  | .items before => ∀ j ∈ before, Json.Within n j
  | .members before key => MembersWithin n before ∧ ∀ s ∈ key, room s ≤ n

def Due.Within (n : Nat) : Due → Prop
  | .value | .item => True
  | .key before => MembersWithin n before
  | .colon before k => MembersWithin n before ∧ ∀ s ∈ k, room s ≤ n
  | .next v => Json.Within n v

def Move.Within (n : Nat) : Move → Prop
  | .go stack due => (∀ f ∈ stack, f.Within n) ∧ due.Within n
  | .done v | .halt v => Json.Within n v

theorem MembersWithin.cons {before : List (Option String × Json)} {key : Option String}
    (h : MembersWithin n before) (hkey : ∀ s ∈ key, room s ≤ n) (hv : Within n v) :
    MembersWithin n ((key, v) :: before) :=
  List.forall_mem_cons.2 ⟨⟨hkey, hv⟩, h⟩

theorem MembersWithin.broken {before : List (Option String × Json)} (h : MembersWithin n before) :
    MembersWithin n ((none, .broken) :: before) :=
  h.cons (fun _ hs => by cases hs) .broken

theorem within_closeAll (hstack : ∀ f ∈ stack, f.Within n) (hv : Within n v) :
    Within n (closeAll stack v) := by
  induction stack generalizing v with
  | nil => exact hv
  | cons f stack ih =>
    rw [List.forall_mem_cons] at hstack
    refine ih hstack.2 ?_
    cases f with
    | items before => exact within_array_reverse (List.forall_mem_cons.2 ⟨hv, hstack.1⟩)
    | members before key => exact within_reverse (hstack.1.1.cons hstack.1.2 hv)

theorem within_halted (hstack : ∀ f ∈ stack, f.Within n) (hdue : due.Within n) :
    Within n (halted stack due) := by
  cases due with
  | value => exact within_closeAll hstack .broken
  | item => exact within_closeAll hstack (.array (by simpa using .broken))
  | key before => exact within_closeAll hstack (within_reverse hdue.broken)
  | colon before key => exact within_closeAll hstack (within_reverse (hdue.1.cons hdue.2 .broken))
  | next v =>
    cases stack with
    | nil => exact hdue
    | cons f stack =>
      rw [List.forall_mem_cons] at hstack
      cases f with
      | items before =>
        exact within_closeAll hstack.2 (within_array_reverse
          (List.forall_mem_cons.2 ⟨.broken, List.forall_mem_cons.2 ⟨hdue, hstack.1⟩⟩))
      | members before key =>
        exact within_closeAll hstack.2 (within_reverse (hstack.1.1.cons hstack.1.2 hdue).broken)

theorem within_complete (hstack : ∀ f ∈ stack, f.Within n) (hv : Within n v) :
    (complete stack v).Within n := by
  cases stack with
  | nil => exact hv
  | cons f stack => exact ⟨hstack, hv⟩

theorem within_scalar? (ht : t.room ≤ n) (h : scalar? t = some v) : Within n v := by
  unfold scalar? at h
  split at h <;> cases h
  · exact .null
  · exact .bool _
  · exact .number _
  · refine .text fun s hs => ?_
    cases hs
    exact ht

theorem within_begin (hstack : ∀ f ∈ stack, f.Within n) (ht : t.room ≤ n) :
    (begin stack t).Within n := by
  unfold begin
  split
  · exact ⟨hstack, trivial⟩
  · exact ⟨hstack, by simp [Due.Within, MembersWithin]⟩
  · split
    · next v hv => exact within_complete hstack (within_scalar? ht hv)
    · exact within_halted hstack trivial

theorem within_proceed (hstack : ∀ f ∈ stack, f.Within n) (hv : Within n v) :
    (proceed stack v t).Within n := by
  have hhalt : (Move.halt (halted stack (.next v))).Within n := within_halted hstack hv
  unfold proceed
  split
  case h_5 => exact hhalt
  all_goals
    rw [List.forall_mem_cons] at hstack
    obtain ⟨hframe, hstack⟩ := hstack
  · exact ⟨List.forall_mem_cons.2 ⟨List.forall_mem_cons.2 ⟨hv, hframe⟩, hstack⟩, trivial⟩
  · exact within_complete hstack (within_array_reverse (List.forall_mem_cons.2 ⟨hv, hframe⟩))
  · exact ⟨hstack, hframe.1.cons hframe.2 hv⟩
  · exact within_complete hstack (within_reverse (hframe.1.cons hframe.2 hv))

theorem within_step (hstack : ∀ f ∈ stack, f.Within n) (hdue : due.Within n) (ht : t.room ≤ n) :
    (step stack due t).Within n := by
  unfold step
  split
  · exact within_begin hstack ht
  · exact within_complete hstack (.array (by simp))
  · exact within_begin (List.forall_mem_cons.2 ⟨by simp [Frame.Within], hstack⟩) ht
  · exact within_complete hstack (.object (by simp) (by simp))
  · refine ⟨hstack, hdue, fun s hs => ?_⟩
    cases hs
    exact ht
  · exact within_halted hstack hdue
  · exact ⟨List.forall_mem_cons.2 ⟨hdue, hstack⟩, trivial⟩
  · exact within_halted hstack hdue
  · exact within_proceed hstack hdue

theorem within_read : ∀ (ts : List Token) {stack : List Frame} {due : Due},
    (∀ f ∈ stack, f.Within n) → due.Within n → (∀ t ∈ ts, t.room ≤ n) →
      Within n (read stack due ts).1
  | [], stack, due, hstack, hdue, _ => within_halted hstack hdue
  | t :: ts, stack, due, hstack, hdue, hts => by
    rw [List.forall_mem_cons] at hts
    have hmove := within_step hstack hdue hts.1
    rw [read]
    split
    · next heq =>
      rw [heq] at hmove
      exact within_read ts hmove.1 hmove.2 hts.2
    · next heq =>
      rw [heq] at hmove
      exact hmove
    · next heq =>
      rw [heq] at hmove
      exact hmove

end Reading

/-- A text has the room for every string in its tree. -/
theorem within_parse (s : String) : Within s.utf8ByteSize (parse s).1 := by
  refine within_read _ (by simp) trivial fun t ht => ?_
  have hroom := room_scan ht
  rwa [← String.utf8ByteSize_ofList, String.ofList_toList] at hroom

end RadioScan.Json
