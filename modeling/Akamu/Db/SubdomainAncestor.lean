import Akamu.Db.Statements

/-!
# The search for an authorized ancestor

The candidates of `find_valid_subdomain_ancestor` are the suffixes of the domain
after its dots, the longest first; a row whose order id is `NULL` is read as the
driver reads it.
-/

namespace Akamu

open List

namespace Text

theorem mem_ancestorSuffixes_iff {cs d : List Char} :
    d ∈ ancestorSuffixes cs ↔ '.' ∈ d ∧ ∃ front, cs = front ++ '.' :: d := by
  constructor
  · intro h
    refine ⟨?_, exists_front_of_mem_ancestorSuffixes h⟩
    induction cs with
    | nil => cases h
    | cons c cs ih =>
      unfold ancestorSuffixes at h
      split_ifs at h with hc hdot
      · rcases mem_cons.mp h with rfl | htail
        · exact hdot
        · exact ih htail
      · cases h
      · exact ih h
  · rintro ⟨hdot, front, rfl⟩
    induction front with
    | nil => simp [ancestorSuffixes, hdot]
    | cons c front ih =>
      rw [cons_append, ancestorSuffixes]
      split_ifs
      · exact mem_cons_of_mem _ ih
      · rename_i hnone
        exact absurd (by simp) hnone
      · exact ih

theorem length_lt_of_mem_ancestorSuffixes {cs d : List Char} (h : d ∈ ancestorSuffixes cs) :
    d.length < cs.length := by
  obtain ⟨front, rfl⟩ := exists_front_of_mem_ancestorSuffixes h
  simp only [length_append, length_cons]
  omega

/-- Longer candidates come first. -/
theorem pairwise_ancestorSuffixes (cs : List Char) :
    (ancestorSuffixes cs).Pairwise fun d e ↦ e.length < d.length := by
  induction cs with
  | nil => exact .nil
  | cons c cs ih =>
    rw [ancestorSuffixes]
    split_ifs
    · exact .cons (fun _ ↦ length_lt_of_mem_ancestorSuffixes) ih
    · exact .nil
    · exact ih

end Text

namespace Authz

/-- A row that authorizes the subdomain. -/
structure Ancestor (accountId domain caId : String) (now : Int) (a : AuthorizationRow) : Prop where
  account : a.accountId = accountId
  ca : a.caId = caId ∨ a.caId = "default" ∨ a.caId = ""
  allowed : a.subdomainAuthAllowed = true
  valid : a.status = .valid
  unexpired : ∀ e ∈ a.expires, now < e
  dns : a.identifier.type = .dns
  dot : '.' ∈ a.identifier.value.toList
  suffix : ∃ front, domain.toList = front ++ '.' :: a.identifier.value.toList

section

variable {db : Db} {accountId domain caId : String} {now : Int} {a : AuthorizationRow}

theorem mem_ancestorDomains_iff {value : String} :
    value ∈ Text.ancestorDomains domain ↔
      '.' ∈ value.toList ∧ ∃ front, domain.toList = front ++ '.' :: value.toList := by
  rw [← Text.mem_ancestorSuffixes_iff, Text.ancestorDomains, mem_map]
  constructor
  · rintro ⟨d, hd, rfl⟩
    rwa [String.toList_ofList]
  · exact fun h ↦ ⟨value.toList, h, String.ofList_toList⟩

theorem ancestor_iff : Ancestor accountId domain caId now a ↔
    isSubdomainAncestor accountId a.identifier.value caId now a = true ∧
      a.identifier.value ∈ Text.ancestorDomains domain := by
  rw [mem_ancestorDomains_iff]
  have hident : a.identifier = ⟨.dns, a.identifier.value⟩ ↔ a.identifier.type = .dns := by
    cases a.identifier
    simp
  simp only [isSubdomainAncestor, Bool.and_eq_true, beq_iff_eq, hident, caScope, Bool.or_eq_true,
    unexpired, Option.all_eq_true, decide_eq_true_eq, or_assoc]
  constructor
  · rintro ⟨h₁, h₂, h₃, h₄, h₅, h₆, h₇, h₈⟩
    exact ⟨⟨⟨⟨⟨⟨h₁, h₆⟩, h₃⟩, h₂⟩, h₄⟩, h₅⟩, h₇, h₈⟩
  · rintro ⟨⟨⟨⟨⟨⟨h₁, h₆⟩, h₃⟩, h₂⟩, h₄⟩, h₅⟩, h₇, h₈⟩
    exact ⟨h₁, h₂, h₃, h₄, h₅, h₆, h₇, h₈⟩

def searchAncestor (db : Db) (accountId domain caId : String) (now : Int) :
    Option AuthorizationRow :=
  (Text.ancestorDomains domain).findSome? fun remaining ↦
    db.authorizations.rows.find? (isSubdomainAncestor accountId remaining caId now)

/-- The row the search comes to: of the rows that authorize the subdomain with
the longest value, the first one in the table. -/
structure Selected (db : Db) (accountId domain caId : String) (now : Int) (a : AuthorizationRow) :
    Prop where
  ancestor : Ancestor accountId domain caId now a
  longest : ∀ b ∈ db.authorizations.rows, Ancestor accountId domain caId now b →
    b.identifier.value.toList.length ≤ a.identifier.value.toList.length
  first : ∃ front back, db.authorizations.rows = front ++ a :: back ∧
    ∀ b ∈ front, Ancestor accountId domain caId now b → b.identifier.value ≠ a.identifier.value

theorem Selected.mem (h : Selected db accountId domain caId now a) :
    a ∈ db.authorizations.rows := by
  obtain ⟨front, back, hrows, -⟩ := h.first
  rw [hrows]
  exact mem_append_right _ mem_cons_self

theorem value_of_isSubdomainAncestor {remaining : String}
    (h : isSubdomainAncestor accountId remaining caId now a = true) :
    a.identifier.value = remaining := by
  simp only [isSubdomainAncestor, Bool.and_eq_true, beq_iff_eq] at h
  rw [h.1.1.1.1.2]

/-- Two suffixes of the domain of one length are the same. -/
theorem value_eq_of_length_eq {b : AuthorizationRow} (ha : Ancestor accountId domain caId now a)
    (hb : Ancestor accountId domain caId now b)
    (h : a.identifier.value.toList.length = b.identifier.value.toList.length) :
    a.identifier.value = b.identifier.value := by
  obtain ⟨front, hfront⟩ := ha.suffix
  obtain ⟨front', hfront'⟩ := hb.suffix
  apply String.toList_inj.mp
  have heq := (append_inj' (hfront.symm.trans hfront') (by simp [h])).2
  exact (cons.inj heq).2

theorem selected_of_searchAncestor (h : searchAncestor db accountId domain caId now = some a) :
    Selected db accountId domain caId now a := by
  obtain ⟨longer, remaining, shorter, hlist, hfind, hnone⟩ := findSome?_eq_some_iff.mp h
  obtain ⟨hwhere, front, back, hrows, hfront⟩ := find?_eq_some_iff_append.mp hfind
  obtain rfl := value_of_isSubdomainAncestor hwhere
  have hcandidate : a.identifier.value ∈ Text.ancestorDomains domain := by
    rw [hlist]
    exact mem_append_right _ mem_cons_self
  refine ⟨ancestor_iff.mpr ⟨hwhere, hcandidate⟩, fun b hb hancestor ↦ ?_, front, back, hrows,
    fun b hb hancestor heq ↦ ?_⟩
  · obtain ⟨hbwhere, hbmem⟩ := ancestor_iff.mp hancestor
    have hsorted : (Text.ancestorDomains domain).Pairwise fun s t ↦
        t.toList.length < s.toList.length :=
      (Text.pairwise_ancestorSuffixes domain.toList).map _ fun d e hlt ↦ by simpa using hlt
    rw [hlist] at hbmem hsorted
    rcases mem_append.mp hbmem with hlonger | hrest
    · exact absurd (find?_eq_none.mp (hnone _ hlonger) b hb) (not_not.mpr hbwhere)
    · rcases mem_cons.mp hrest with heq | hshorter
      · rw [heq]
      · exact (rel_of_pairwise_cons (pairwise_append.mp hsorted).2.1 hshorter).le
  · have hbwhere := (ancestor_iff.mp hancestor).1
    rw [heq] at hbwhere
    simpa [hbwhere] using hfront b hb

theorem searchAncestor_ne_none (ha : a ∈ db.authorizations.rows)
    (h : Ancestor accountId domain caId now a) :
    searchAncestor db accountId domain caId now ≠ none := by
  intro hnone
  obtain ⟨hwhere, hmem⟩ := ancestor_iff.mp h
  exact find?_eq_none.mp (findSome?_eq_none_iff.mp hnone _ hmem) a ha hwhere

theorem Selected.unique {b : AuthorizationRow} (ha : Selected db accountId domain caId now a)
    (hb : Selected db accountId domain caId now b) : a = b := by
  have hlength :=
    Nat.le_antisymm (hb.longest a ha.mem ha.ancestor) (ha.longest b hb.mem hb.ancestor)
  have hvalue := value_eq_of_length_eq ha.ancestor hb.ancestor hlength
  obtain ⟨front, back, hrows, hfront⟩ := ha.first
  obtain ⟨front', back', hrows', hfront'⟩ := hb.first
  -- the shorter front tells which of the two comes first
  rcases append_eq_append_iff.mp (hrows.symm.trans hrows') with
    ⟨more, hmore, hrest⟩ | ⟨more, hmore, hrest⟩
  · cases more with
    | nil => exact (cons.inj hrest).1
    | cons c more =>
      obtain ⟨rfl, -⟩ := cons.inj hrest
      exact absurd hvalue (hfront' a (by simp [hmore]) ha.ancestor)
  · cases more with
    | nil => exact (cons.inj hrest).1.symm
    | cons c more =>
      obtain ⟨rfl, -⟩ := cons.inj hrest
      exact absurd hvalue.symm (hfront b (by simp [hmore]) hb.ancestor)

theorem searchAncestor_eq_some_iff : searchAncestor db accountId domain caId now = some a ↔
    Selected db accountId domain caId now a := by
  refine ⟨selected_of_searchAncestor, fun h ↦ ?_⟩
  obtain ⟨b, hb⟩ := Option.ne_none_iff_exists'.mp (searchAncestor_ne_none h.mem h.ancestor)
  rw [hb, h.unique (selected_of_searchAncestor hb)]

/-- What is returned is a longest row that authorizes the subdomain, and one is
returned if there are any. -/
structure Finds (decodeNull : Except AcmeError String) (db : Db) (accountId domain caId : String)
    (now : Int) : Prop where
  longest : ∀ row, findValidSubdomainAncestor decodeNull db accountId domain caId now =
      .ok (some row) → ∃ a ∈ db.authorizations.rows,
    row = { a with orderId := row.orderId } ∧ Ancestor accountId domain caId now a ∧
    ∀ b ∈ db.authorizations.rows, Ancestor accountId domain caId now b →
      b.identifier.value.toList.length ≤ a.identifier.value.toList.length
  found : (∃ a ∈ db.authorizations.rows, Ancestor accountId domain caId now a) →
    ∃ row, findValidSubdomainAncestor decodeNull db accountId domain caId now = .ok (some row)

theorem decodeOpt_some_ok (decodeNull : Except AcmeError String) (a : AuthorizationRow) :
    (∃ row, decodeOpt decodeNull (some a) = .ok (some row)) ↔
      (a.orderId = none → decodeNull.isOk = true) := by
  cases hnull : a.orderId with
  | some => simp [decodeOpt, decode, hnull, Except.map]
  | none =>
    cases decodeNull <;> simp [decodeOpt, decode, hnull, Except.map, Except.isOk, Except.toBool]

/-- The search does what it is for exactly if the driver can read the row it comes
to: that row has an order, or `NULL` reads as a text. -/
theorem subdomain_ancestor_longest (decodeNull : Except AcmeError String) (db : Db)
    (accountId domain caId : String) (now : Int) :
    Finds decodeNull db accountId domain caId now ↔
      ∀ a, Selected db accountId domain caId now a → a.orderId = none → decodeNull.isOk = true := by
  have hsearch : findValidSubdomainAncestor decodeNull db accountId domain caId now =
      decodeOpt decodeNull (searchAncestor db accountId domain caId now) := rfl
  constructor
  · intro h a ha
    have hfound := h.found ⟨a, ha.mem, ha.ancestor⟩
    rw [hsearch, searchAncestor_eq_some_iff.mpr ha] at hfound
    exact (decodeOpt_some_ok decodeNull a).mp hfound
  · intro hread
    constructor
    · intro row hrow
      obtain ⟨a, hfound, hdecoded, -⟩ := decodeOpt_eq_ok (hsearch ▸ hrow)
      have ha := selected_of_searchAncestor hfound
      exact ⟨a, ha.mem, hdecoded, ha.ancestor, ha.longest⟩
    · rintro ⟨a, ha, hancestor⟩
      obtain ⟨b, hb⟩ := Option.ne_none_iff_exists'.mp (searchAncestor_ne_none ha hancestor)
      rw [hsearch, hb]
      exact (decodeOpt_some_ok decodeNull b).mpr (hread b (selected_of_searchAncestor hb))

end

end Authz

namespace AncestorExample

/-- The account holds `example.com` with all its subdomains, by an order or by a
pre-authorization. -/
def authorized (orderId : Option String) : Db :=
  { Db.empty with
    authorizations := ⟨[
      { id := "authz-1", orderId := orderId, accountId := "acct-1", status := .valid
        identifier := ⟨.dns, "example.com"⟩, expires := none, wildcard := false
        subdomainAuthAllowed := true, created := 1, updated := 1, caId := "ca" }], by simp⟩ }

def search (orderId : Option String) : Except AcmeError (Option AuthorizationRow) :=
  Authz.findValidSubdomainAncestor (.error (.database "unexpected null")) (authorized orderId)
    "acct-1" "www.example.com" "ca" 5

theorem ancestor (orderId : Option String) : ∃ a ∈ (authorized orderId).authorizations.rows,
    Authz.Ancestor "acct-1" "www.example.com" "ca" 5 a :=
  ⟨_, mem_singleton.mpr rfl, rfl, .inl rfl, rfl, rfl, (fun _ he ↦ nomatch he), rfl,
    show '.' ∈ "example.com".toList by decide, "www".toList,
    show "www.example.com".toList = "www".toList ++ '.' :: "example.com".toList by decide⟩

/-- A pre-authorization has no order, and the driver cannot read its row. -/
theorem preauthorization_not_found :
    (∃ a ∈ (authorized none).authorizations.rows,
      Authz.Ancestor "acct-1" "www.example.com" "ca" 5 a) ∧
    search none = .error (.database "unexpected null") :=
  ⟨ancestor none, by decide +kernel⟩

theorem ordered_authorization_found : ∃ row, search (some "order-1") = .ok (some row) := by
  refine ((Authz.subdomain_ancestor_longest _ _ _ _ _ _).mpr fun a ha hnull ↦ ?_).found (ancestor _)
  rw [List.mem_singleton.mp ha.mem] at hnull
  cases hnull

end AncestorExample

end Akamu
