import MailAggregator.Lib.PyText
import Mathlib.Data.List.Forall2

set_option relaxedAutoImplicit false
set_option autoImplicit false

/-!
# Building the message

`build_mime` puts the fields of a send request into the headers of an `EmailMessage`. What an
assignment does is the email package's: it parses the value by the name of the header, decodes
encoded words in it, and stores what comes out, or it raises. A value of more than one line is
refused with `ValueError`; the parsers of the address headers raise other exceptions as well. So the
outcome of an assignment is an input here.

## Main definitions

* `MailAggregator.SendRequest` — the fields of a send request.
* `MailAggregator.Mime.HeaderStore` — what the assignment of a header does.
* `MailAggregator.Mime.buildMime` — the message, or what an assignment raises.
* `MailAggregator.Mime.LineRule` — the assignments that raise by the number of lines alone.

## Main results

* `MailAggregator.Mime.buildMime_eq_ok_iff` — the message is built exactly when each header can be
  assigned, and then it has what is stored of each.
-/

namespace MailAggregator

open PyText

/-- The fields of a send request. -/
structure SendRequest where
  toAddrs : List Text
  cc : Option (List Text) := none
  subject : Option Text := none
  bodyText : Text
  inReplyTo : Option Text := none
  refs : Option Text := none
  /-- `_check_recipients`. -/
  some_recipient : toAddrs ++ cc.getD [] ≠ [] := by decide
  deriving DecidableEq, Repr

/-- The recipients of the envelope: `to` and `cc`. -/
def SendRequest.recipients (r : SendRequest) : List Text := r.toAddrs ++ r.cc.getD []

namespace Mime

/-- What the assignment of a header raises. -/
inductive HeaderError where
  | valueError
  /-- Any other exception of a header parser: `AttributeError`, `IndexError`, `TypeError`. -/
  | other
  deriving DecidableEq, Repr

/-- What the assignment of a header does, by its name and value: the value that is stored, or what
is raised. -/
abbrev HeaderStore := Text → Text → Except HeaderError Text

/-- An `EmailMessage`: its headers in their order, with the values that are stored, and its text. -/
structure EmailMessage where
  headers : List (Text × Text)
  body : Text
  deriving DecidableEq, Repr

/-- A value of more than one line. -/
def MultiLine (value : Text) : Prop := 1 < (splitLines value).length

instance (value : Text) : Decidable (MultiLine value) := inferInstanceAs (Decidable (_ < _))

/-- A header that is assigned if its value is not empty. -/
def optionalHeader (name : String) (value : Option Text) : List (Text × Text) :=
  match value with
  | none | some [] => []
  | some v => [(name.toList, v)]

/-- The header of the recipients in copy, if there are any. -/
def ccHeader : Option (List Text) → List (Text × Text)
  | none | some [] => []
  | some cc => [("Cc".toList, ", ".toList.intercalate cc)]

/-- The headers that `build_mime` assigns. -/
def headers (fromAddr : Text) (messageId : Text) (r : SendRequest) : List (Text × Text) :=
  [("From".toList, fromAddr), ("To".toList, ", ".toList.intercalate r.toAddrs)] ++ ccHeader r.cc ++
    optionalHeader "Subject" r.subject ++ [("Message-ID".toList, messageId)] ++
    optionalHeader "In-Reply-To" r.inReplyTo ++ optionalHeader "References" r.refs

/-- Assign headers one after another. The first that cannot be assigned ends it. -/
def assign (store : HeaderStore) (msg : EmailMessage) :
    List (Text × Text) → Except HeaderError EmailMessage
  | [] => .ok msg
  | header :: rest =>
    match store header.1 header.2 with
    | .error e => .error e
    | .ok stored => assign store { msg with headers := msg.headers ++ [(header.1, stored)] } rest

/-- `build_mime`. -/
def buildMime (store : HeaderStore) (fromAddr messageId : Text) (r : SendRequest) :
    Except HeaderError EmailMessage :=
  (assign store ⟨[], []⟩ (headers fromAddr messageId r)).map fun msg =>
    { msg with body := r.bodyText }

/-! ## When the message is built -/

/-- A header is kept by a store: under its name, with what is stored of its value. -/
def Keeps (store : HeaderStore) (header kept : Text × Text) : Prop :=
  kept.1 = header.1 ∧ store header.1 header.2 = .ok kept.2

/-- A header that can be assigned. -/
def Assignable (store : HeaderStore) (header : Text × Text) : Prop :=
  ∃ stored, store header.1 header.2 = .ok stored

/-- **The line rule** of a header: its assignment raises exactly if the value has more than one
line, and then `ValueError`. -/
def LineRule (store : HeaderStore) (name : Text) : Prop :=
  ∀ value, (∀ e, store name value = .error e → e = .valueError) ∧
    (store name value = .error .valueError ↔ MultiLine value)

variable {store : HeaderStore}

theorem assignable_iff_exists_keeps (header : Text × Text) :
    Assignable store header ↔ ∃ kept, Keeps store header kept := by
  constructor
  · rintro ⟨stored, hstored⟩
    exact ⟨(header.1, stored), rfl, hstored⟩
  · rintro ⟨kept, -, hkept⟩
    exact ⟨kept.2, hkept⟩

/-- Under the line rule, a header can be assigned exactly if its value is one line. -/
theorem LineRule.assignable_iff {name : Text} (h : LineRule store name) (value : Text) :
    Assignable store (name, value) ↔ ¬ MultiLine value := by
  obtain ⟨honly, hlines⟩ := h value
  rw [← hlines, Assignable]
  cases hstore : store name value with
  | error e =>
    obtain rfl := honly e hstore
    simp
  | ok stored => simp

/-- A store that keeps each value of one line as it is. -/
def lineStore : HeaderStore := fun _ value =>
  if MultiLine value then .error .valueError else .ok value

theorem lineRule_lineStore (name : Text) : LineRule lineStore name := by
  intro value
  by_cases hmulti : MultiLine value
  · simp [lineStore, hmulti]
  · simp [lineStore, hmulti]

/-- What is kept of headers, and what it is kept of. -/
theorem mem_of_keeps {hs kept : List (Text × Text)} (h : List.Forall₂ (Keeps store) hs kept) :
    (∀ header ∈ hs, ∃ k ∈ kept, Keeps store header k) ∧
      ∀ k ∈ kept, ∃ header ∈ hs, Keeps store header k := by
  induction h with
  | nil => exact ⟨fun _ h => (nomatch h), fun _ h => (nomatch h)⟩
  | @cons header k hs kept hfirst _ ih =>
    refine ⟨List.forall_mem_cons.mpr ⟨⟨k, List.mem_cons_self, hfirst⟩, fun b hb => ?_⟩,
      List.forall_mem_cons.mpr ⟨⟨header, List.mem_cons_self, hfirst⟩, fun b hb => ?_⟩⟩
    · obtain ⟨k', hk', hkeeps⟩ := ih.1 b hb
      exact ⟨k', List.mem_cons_of_mem k hk', hkeeps⟩
    · obtain ⟨header', hheader', hkeeps⟩ := ih.2 b hb
      exact ⟨header', List.mem_cons_of_mem header hheader', hkeeps⟩

/-- **Which message is there after the assignments**: the headers that were there, and then what is
kept of each header that is assigned.

**Proof sketch.** Induction on the headers, for any message they are added to. If the first one
cannot be assigned then nothing is kept of it, and otherwise it is the last header of the message
that the rest is added to. -/
theorem assign_eq_ok_iff (msg msg' : EmailMessage) (hs : List (Text × Text)) :
    assign store msg hs = .ok msg' ↔
      ∃ kept, List.Forall₂ (Keeps store) hs kept ∧
        msg' = { msg with headers := msg.headers ++ kept } := by
  induction hs generalizing msg with
  | nil =>
    simp only [assign, Except.ok.injEq, List.forall₂_nil_left_iff, exists_eq_left, List.append_nil]
    exact eq_comm
  | cons header rest ih =>
    rw [assign]
    cases hstore : store header.1 header.2 with
    | error e =>
      refine iff_of_false (fun h => by cases h) ?_
      rintro ⟨kept, hkept, -⟩
      cases hkept with
      | cons hfirst hrest =>
        rw [hfirst.2] at hstore
        cases hstore
    | ok stored =>
      simp only [ih]
      constructor
      · rintro ⟨kept, hkept, rfl⟩
        exact ⟨(header.1, stored) :: kept, .cons ⟨rfl, hstore⟩ hkept, by simp⟩
      · rintro ⟨kept, hkept, rfl⟩
        cases hkept with
        | @cons _ first _ later hfirst hrest =>
          obtain ⟨hname, hvalue⟩ := hfirst
          rw [hstore] at hvalue
          obtain rfl : first = (header.1, stored) := Prod.ext hname (Except.ok.inj hvalue).symm
          exact ⟨later, hrest, by simp⟩

/-- **Which message is built**: that with the text of the request, and with what is kept of each
header. -/
theorem buildMime_eq_ok_iff (fromAddr messageId : Text) (r : SendRequest) (msg : EmailMessage) :
    buildMime store fromAddr messageId r = .ok msg ↔
      List.Forall₂ (Keeps store) (headers fromAddr messageId r) msg.headers ∧
        msg.body = r.bodyText := by
  have hmap : buildMime store fromAddr messageId r = .ok msg ↔
      ∃ msg', assign store ⟨[], []⟩ (headers fromAddr messageId r) = .ok msg' ∧
        { msg' with body := r.bodyText } = msg := by
    rw [buildMime]
    cases assign store ⟨[], []⟩ (headers fromAddr messageId r) <;> simp [Except.map]
  rw [hmap]
  simp only [assign_eq_ok_iff, List.nil_append]
  constructor
  · rintro ⟨msg', ⟨kept, hkept, rfl⟩, rfl⟩
    exact ⟨hkept, rfl⟩
  · rintro ⟨hkept, hbody⟩
    exact ⟨_, ⟨_, hkept, rfl⟩, by rw [← hbody]⟩

/-- **The message is built exactly when each header can be assigned.** -/
theorem buildMime_ok_iff (fromAddr messageId : Text) (r : SendRequest) :
    (∃ msg, buildMime store fromAddr messageId r = .ok msg) ↔
      ∀ header ∈ headers fromAddr messageId r, Assignable store header := by
  simp only [buildMime_eq_ok_iff, assignable_iff_exists_keeps]
  constructor
  · rintro ⟨msg, hkept, -⟩ header hheader
    obtain ⟨kept, -, hkeeps⟩ := (mem_of_keeps hkept).1 header hheader
    exact ⟨kept, hkeeps⟩
  · intro h
    choose! keep hkeep using h
    refine ⟨⟨(headers fromAddr messageId r).map keep, r.bodyText⟩, ?_, rfl⟩
    exact List.forall₂_map_right_iff.mpr (List.forall₂_same.mpr hkeep)

/-- A header is in the message exactly if it was assigned and its value is what is stored. -/
theorem mem_headers_buildMime_iff {fromAddr messageId : Text} {r : SendRequest}
    {msg : EmailMessage} (h : buildMime store fromAddr messageId r = .ok msg) (name stored : Text) :
    (name, stored) ∈ msg.headers ↔
      ∃ value, (name, value) ∈ headers fromAddr messageId r ∧ store name value = .ok stored := by
  obtain ⟨hassigned, hkept⟩ := mem_of_keeps ((buildMime_eq_ok_iff _ _ _ _).mp h).1
  constructor
  · intro hmem
    obtain ⟨⟨name', value⟩, hheader, hname, hvalue⟩ := hkept _ hmem
    obtain rfl : name = name' := hname
    exact ⟨value, hheader, hvalue⟩
  · rintro ⟨value, hheader, hvalue⟩
    obtain ⟨⟨name', stored'⟩, hmem, hname, hvalue'⟩ := hassigned _ hheader
    obtain rfl : name' = name := hname
    rw [hvalue] at hvalue'
    obtain rfl := Except.ok.inj hvalue'
    exact hmem

end Mime

end MailAggregator
