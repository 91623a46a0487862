import Mathlib.Data.List.Infix

/-!
# Escaped text

Some characters are written as an escape character and a code. A text so written can be cut
at separators, and lists of fields `key=value` can be read back from it.
-/

namespace Lib

/-- The escape character, and the codes that stand after it. -/
structure Escaping (α : Type*) where
  mark : α
  code : α → Option α
  char : α → Option α
  char_code : ∀ {c k}, code c = some k → char k = some c
  code_mark : (code mark).isSome = true

namespace Escaping

variable {α : Type*}

/-- A character of an escaped text: one that stands for itself, or one behind the escape
character. -/
inductive Token (α : Type*) where
  | plain (c : α)
  | coded (k : α)
deriving DecidableEq

variable (e : Escaping α)

def Token.text : Token α → List α
  | .plain c => [c]
  | .coded k => [e.mark, k]

def Token.value : Token α → α
  | .plain c => c
  | .coded k => (e.char k).getD k

/-- How a character is written. -/
def token (c : α) : Token α :=
  match e.code c with
  | some k => .coded k
  | none => .plain c

def text (ts : List (Token α)) : List α := ts.flatMap (Token.text e)

def escape (s : List α) : List α := e.text (s.map e.token)

section reading

variable [DecidableEq α]

/-- An escape character takes the next character with it, if there is one. -/
def tokens : List α → List (Token α)
  | [] => []
  | [c] => [.plain c]
  | c :: k :: rest =>
      if c = e.mark then .coded k :: tokens rest else .plain c :: tokens (k :: rest)

def unescape (s : List α) : List α := (e.tokens s).map (Token.value e)

/-- What stands between the separators that are not escaped. -/
def pieces (sep : α) (s : List α) : List (List α) :=
  ((e.tokens s).splitOn (.plain sep)).map e.text

end reading

theorem escape_eq_flatMap (s : List α) : e.escape s = s.flatMap fun c => (e.token c).text e :=
  List.flatMap_map _ _ s

@[simp] theorem text_nil : e.text [] = [] := rfl

@[simp] theorem text_append (ts us : List (Token α)) : e.text (ts ++ us) = e.text ts ++ e.text us :=
  List.flatMap_append

theorem token_ne_plain {c : α} (h : (e.code c).isSome = true) (d : α) : e.token d ≠ .plain c := by
  unfold token
  split
  · exact nofun
  · next hnone =>
      rintro ⟨⟩
      rw [hnone] at h
      cases h

theorem token_value (c : α) : (e.token c).value e = c := by
  unfold token
  split
  · next k hk => rw [Token.value, e.char_code hk, Option.getD_some]
  · rfl

section reading

variable [DecidableEq α]

theorem tokens_cons {c : α} (h : c ≠ e.mark) (rest : List α) :
    e.tokens (c :: rest) = .plain c :: e.tokens rest := by
  cases rest with
  | nil => rfl
  | cons k rest => rw [tokens, if_neg h]

/-- What is written as tokens is read as these tokens, whatever comes next. -/
theorem tokens_text_append {ts : List (Token α)} (h : .plain e.mark ∉ ts) (rest : List α) :
    e.tokens (e.text ts ++ rest) = ts ++ e.tokens rest := by
  induction ts with
  | nil => rfl
  | cons t ts ih =>
      rw [List.mem_cons, not_or] at h
      rw [text, List.flatMap_cons, List.append_assoc, ← text]
      cases t with
      | plain c =>
          have hc : c ≠ e.mark := fun hc => h.1 (by rw [hc])
          rw [Token.text, List.singleton_append, tokens_cons _ hc, ih h.2, List.cons_append]
      | coded k =>
          rw [Token.text, List.cons_append, List.singleton_append, tokens, if_pos rfl, ih h.2,
            List.cons_append]

theorem tokens_text {ts : List (Token α)} (h : .plain e.mark ∉ ts) : e.tokens (e.text ts) = ts := by
  simpa [tokens] using e.tokens_text_append h []

theorem tokens_escape (s : List α) : e.tokens (e.escape s) = s.map e.token := by
  refine e.tokens_text fun hmem => ?_
  obtain ⟨c, -, hc⟩ := List.mem_map.mp hmem
  exact e.token_ne_plain e.code_mark c hc

@[simp] theorem unescape_escape (s : List α) : e.unescape (e.escape s) = s := by
  rw [unescape, tokens_escape, List.map_map]
  exact (List.map_congr_left fun c _ => e.token_value c).trans (List.map_id s)

end reading

/-! ## Cutting at separators -/

/-- A text without separators, which does not end within an escape. -/
def Clean (sep : α) (s : List α) : Prop :=
  ∃ ts, s = e.text ts ∧ .plain e.mark ∉ ts ∧ .plain sep ∉ ts

variable {e} {sep : α} {s t : List α}

theorem Clean.append (hs : Clean e sep s) (ht : Clean e sep t) : Clean e sep (s ++ t) := by
  obtain ⟨ts, rfl, hmark, hsep⟩ := hs
  obtain ⟨us, rfl, hmark', hsep'⟩ := ht
  refine ⟨ts ++ us, (e.text_append ts us).symm, ?_, ?_⟩
  · simp [hmark, hmark']
  · simp [hsep, hsep']

theorem clean_plain (h : ∀ c ∈ s, c ≠ e.mark ∧ c ≠ sep) : Clean e sep s := by
  refine ⟨s.map .plain, ?_, ?_, ?_⟩
  · rw [text, List.flatMap_map]
    exact (List.flatMap_singleton' s).symm
  · simpa using fun hmem => (h _ hmem).1 rfl
  · simpa using fun hmem => (h _ hmem).2 rfl

theorem clean_escape (h : (e.code sep).isSome = true) (s : List α) : Clean e sep (e.escape s) := by
  refine ⟨s.map e.token, rfl, ?_, ?_⟩
  · rintro hmem
    obtain ⟨c, -, hc⟩ := List.mem_map.mp hmem
    exact e.token_ne_plain e.code_mark c hc
  · rintro hmem
    obtain ⟨c, -, hc⟩ := List.mem_map.mp hmem
    exact e.token_ne_plain h c hc

section reading

variable [DecidableEq α]

theorem Clean.pieces_eq (h : Clean e sep s) : e.pieces sep s = [s] := by
  obtain ⟨ts, rfl, hmark, hsep⟩ := h
  rw [pieces, tokens_text _ hmark, List.splitOn, List.splitOnP_eq_singleton, List.map_singleton]
  intro t ht
  rw [beq_eq_false_iff_ne]
  rintro rfl
  exact hsep ht

/-- A separator ends the first piece. -/
theorem Clean.pieces_append_cons (h : Clean e sep s) (hsep : sep ≠ e.mark) (rest : List α) :
    e.pieces sep (s ++ sep :: rest) = s :: e.pieces sep rest := by
  have hpieces := h.pieces_eq
  obtain ⟨ts, rfl, hmark, -⟩ := h
  rw [pieces, tokens_text _ hmark] at hpieces
  have hcut := List.splitOnP_append_cons (p := (· == Token.plain sep)) ts (e.tokens rest)
    (beq_self_eq_true _)
  rw [pieces, tokens_text_append _ hmark, tokens_cons _ hsep, List.splitOn, hcut, List.map_append,
    ← List.splitOn, hpieces]
  rfl

end reading

/-! ## Fields -/

variable (e)

/-- The signs between a key and its value, and between two fields. -/
structure FieldSigns where
  assign : α
  space : α
  code_assign : (e.code assign).isSome = true
  assign_ne : assign ≠ e.mark
  space_ne : space ≠ e.mark ∧ space ≠ assign

variable {e} (signs : FieldSigns e)

def FieldSigns.writeField (field : List α × List α) : List α :=
  field.1 ++ signs.assign :: e.escape field.2

def FieldSigns.writeFields (fields : List (List α × List α)) : List α :=
  [signs.space].intercalate (fields.map signs.writeField)

/-- A word that needs no escapes. -/
def FieldSigns.IsKey (key : List α) : Prop :=
  ∀ c ∈ key, c ≠ e.mark ∧ c ≠ signs.assign ∧ c ≠ signs.space

variable {signs} in
theorem FieldSigns.IsKey.clean {key : List α} (h : signs.IsKey key) :
    Clean e signs.assign key :=
  clean_plain fun c hc => ⟨(h c hc).1, (h c hc).2.1⟩

variable {signs} in
theorem FieldSigns.clean_space : Clean e signs.assign [signs.space] :=
  clean_plain fun _ hc => List.mem_singleton.mp hc ▸ signs.space_ne

/-- What is written has no separators of another kind if the keys have none. -/
theorem FieldSigns.clean_writeFields {fields : List (List α × List α)}
    (hcode : (e.code sep).isSome = true) (hassign : signs.assign ≠ sep)
    (hspace : signs.space ≠ sep) (hkeys : ∀ f ∈ fields, Clean e sep f.1) :
    Clean e sep (signs.writeFields fields) := by
  have hsign (c : α) (hmark : c ≠ e.mark) (hc : c ≠ sep) : Clean e sep [c] :=
    clean_plain fun d hd => List.mem_singleton.mp hd ▸ ⟨hmark, hc⟩
  have hfield : ∀ f ∈ fields, Clean e sep (signs.writeField f) := fun f hf =>
    (hkeys f hf).append ((hsign _ signs.assign_ne hassign).append (clean_escape hcode f.2))
  clear hkeys
  induction fields with
  | nil => exact clean_plain (List.forall_mem_nil _)
  | cons field fields ih =>
      rw [List.forall_mem_cons] at hfield
      cases fields with
      | nil => simpa [writeFields] using hfield.1
      | cons next fields =>
          have htext : signs.writeFields (field :: next :: fields) =
              signs.writeField field ++ ([signs.space] ++ signs.writeFields (next :: fields)) := by
            simp [writeFields]
          rw [htext]
          exact hfield.1.append ((hsign _ signs.space_ne.1 hspace).append (ih hfield.2))

section reading

variable [DecidableEq α]

instance (key : List α) : Decidable (signs.IsKey key) :=
  inferInstanceAs (Decidable (∀ c ∈ key, _ ∧ _ ∧ _))

/-- What follows the last space. -/
def FieldSigns.lastWord (piece : List α) : List α :=
  (piece.reverse.takeWhile (· ≠ signs.space)).reverse

/-- What stands in front of the last space. -/
def FieldSigns.beforeLastWord (piece : List α) : List α :=
  ((piece.reverse.dropWhile (· ≠ signs.space)).drop 1).reverse

/-- A piece between two signs of assignment is a value and the next key. -/
def FieldSigns.assemble (key : List α) : List (List α) → List (List α × List α)
  | [] => []
  | [value] => [(key, e.unescape value)]
  | piece :: next :: more =>
      (key, e.unescape (signs.beforeLastWord piece)) ::
        FieldSigns.assemble (signs.lastWord piece) (next :: more)

def FieldSigns.readFields (s : List α) : List (List α × List α) :=
  match e.pieces signs.assign s with
  | [] => []
  | key :: more => signs.assemble key more

variable {signs}

theorem FieldSigns.lastWord_append {key : List α} (h : signs.IsKey key) (value : List α) :
    signs.lastWord (value ++ signs.space :: key) = key ∧
      signs.beforeLastWord (value ++ signs.space :: key) = value := by
  have hkey : ∀ c ∈ key.reverse, decide (c ≠ signs.space) = true := fun c hc =>
    decide_eq_true (h c (List.mem_reverse.mp hc)).2.2
  have hreverse : (value ++ signs.space :: key).reverse =
      key.reverse ++ signs.space :: value.reverse := by
    simp
  constructor
  · rw [lastWord, hreverse, List.takeWhile_append_of_pos hkey, List.takeWhile_cons_of_neg (by simp),
      List.append_nil, List.reverse_reverse]
  · rw [beforeLastWord, hreverse, List.dropWhile_append_of_pos hkey,
      List.dropWhile_cons_of_neg (by simp), List.drop_one, List.tail_cons, List.reverse_reverse]

/-- The first piece ends with the first key; the others hold the fields. -/
theorem FieldSigns.pieces_writeFields {fields : List (List α × List α)} {field : List α × List α}
    (hkeys : ∀ f ∈ field :: fields, signs.IsKey f.1) {front : List α}
    (hfront : Clean e signs.assign front) :
    ∃ more, e.pieces signs.assign (front ++ signs.writeFields (field :: fields)) =
        (front ++ field.1) :: more ∧
      signs.assemble field.1 more = field :: fields := by
  induction fields generalizing field front with
  | nil =>
      refine ⟨[e.escape field.2], ?_, ?_⟩
      · have hkey := hfront.append (hkeys field List.mem_cons_self).clean
        have htext : front ++ signs.writeFields [field] =
            (front ++ field.1) ++ signs.assign :: e.escape field.2 := by
          simp [writeFields, writeField]
        rw [htext, hkey.pieces_append_cons signs.assign_ne,
          (clean_escape signs.code_assign field.2).pieces_eq]
      · rw [assemble, unescape_escape]
  | cons next fields ih =>
      rw [List.forall_mem_cons] at hkeys
      have hkey := hfront.append hkeys.1.clean
      have hvalue := (clean_escape signs.code_assign field.2).append clean_space
      obtain ⟨more, hpieces, hmore⟩ := ih hkeys.2 hvalue
      have htext : front ++ signs.writeFields (field :: next :: fields) =
          (front ++ field.1) ++ signs.assign ::
            ((e.escape field.2 ++ [signs.space]) ++ signs.writeFields (next :: fields)) := by
        simp [writeFields, writeField]
      refine ⟨_, (htext ▸ hkey.pieces_append_cons signs.assign_ne _).trans
        (congrArg (_ :: ·) hpieces), ?_⟩
      obtain ⟨hlast, hbefore⟩ :=
        lastWord_append (hkeys.2 next List.mem_cons_self) (e.escape field.2)
      cases more with
      | nil => cases hmore
      | cons piece more =>
          rw [List.append_assoc, List.singleton_append, assemble, hlast, hbefore, unescape_escape,
            hmore]

/-- The fields that were written are read back, and they are the only ones of that text. -/
theorem FieldSigns.readFields_writeFields {fields : List (List α × List α)}
    (hkeys : ∀ f ∈ fields, signs.IsKey f.1) :
    signs.readFields (signs.writeFields fields) = fields := by
  cases fields with
  | nil => rfl
  | cons field fields =>
      have hnil : Clean e signs.assign [] := clean_plain (List.forall_mem_nil _)
      obtain ⟨more, hpieces, hmore⟩ := pieces_writeFields hkeys hnil
      rw [List.nil_append] at hpieces
      rw [readFields, hpieces]
      exact hmore

end reading

end Escaping

end Lib
