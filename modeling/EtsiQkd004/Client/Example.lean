import EtsiQkd004.Client.Program
import EtsiQkd004.Client.KeyFile
import EtsiQkd004.Server.Oblivious

/-! The example client. It opens a stream for two applications, fetches the key of either of them
and appends the keys to two files. -/
namespace EtsiQkd004
open Registry

namespace Example

/-- The files `test.key` and `test_.key`. -/
structure KeyFiles where
  test : Bytes
  test_ : Bytes

def source : CString := ⟨ascii "qkd//app1@aaaaaaaa-aaaa-aaaa-aaaa-aaaaaaaaaaaa",by decide⟩
def destination : CString := ⟨ascii "qkd//app2@bbbbbbbb-bbbb-bbbb-bbbb-bbbbbbbbbbbb",by decide⟩
def qos : QkdQos := qosFor 8192

/-- The argument of a run, and what the stack holds under the buffers of its two writes. -/
structure Run where
  keyType : UInt8
  stack : ℕ → UInt8
  stack_ : ℕ → UInt8

/-- The body of the loop over the indices. -/
def fetch (run : Run) (ksid ksid_ : Uuid) (index : UInt32) : Client KeyFiles Unit := do
  let requestedKeyType := if run.keyType=1 then 0x01 else 0x00
  let gkResponse ← Client.getKeyStruct ⟨ksid,index,keyInfo requestedKeyType 0x10⟩
  modify fun files => { files with
    test := writeKeyToFileBitFormat files.test gkResponse run.stack }
  let gkResponse_ ← Client.getKeyStruct ⟨ksid_,index,keyInfo requestedKeyType 0x11⟩
  modify fun files => { files with
    test_ := writeKeyToFileBitFormat files.test_ gkResponse_ run.stack_ }

def getKey (run : Run) : Client KeyFiles Unit := do
  let ocResponse ← Client.openConnectStruct ⟨source,destination,qos,Uuid.nil⟩
  let ocResponse_ ← Client.openConnectStruct ⟨source,destination,qos,ocResponse.keyStreamId⟩
  -- the loop has one round
  fetch run ocResponse.keyStreamId ocResponse_.keyStreamId 0
  let _ ← Client.closeStruct ⟨ocResponse.keyStreamId⟩
  let _ ← Client.closeStruct ⟨ocResponse_.keyStreamId⟩
  pure ()

/-- The program, called again and again in one directory. -/
def getKeys : List Run → Client KeyFiles Unit
  | [] => pure ()
  | run::runs => do
    getKey run
    getKeys runs

end Example

namespace Example
variable {σ : Type} {libc : Prng σ} {s t : Server σ} {c : ℕ → Circumstances}

/-- What a run appends to `test_.key`, besides the key that it appends to `test.key`. -/
def peerKey (run : Run) (key : Bytes) : Bytes :=
  if run.keyType=1 then key.mapIdx obliviousMask else key

/-- The files once a run has appended its keys. -/
def KeyFiles.append (files : KeyFiles) (run : Run) (key : Bytes) : KeyFiles where
  test := files.test ++ keyRecord (0,key)
  test_ := files.test_ ++ keyRecord (0,peerKey run key)

lemma write_eq (file : Bytes) {p : GetKeyResponse} (hindex : p.index=0) (stack : ℕ → UInt8) :
    writeKeyToFileBitFormat file p stack = file ++ keyRecord (0,p.keyBuffer.data) := by
  have hlt : p.index.toNat < 2^31 := by
    rw [hindex]
    decide
  rw [writeKeyToFileBitFormat_eq file (p,stack),written_of_lt hlt,hindex]

/-- The loop appends the key to one file, and what the peer is given of it to the other. -/
lemma hold_fetch [OpenSsl] {w : Server σ × (ℕ → Circumstances)} (hw : Later libc s w.1) {k : Uuid}
    {key : Bytes} (hk : directory s.store (source,destination) = some k)
    (hkey : pairKey libc s (source,destination) 0 = some key)
    (halloc : ∀ n, (w.2 n).env.allocated=true) (run : Run) (files : KeyFiles) :
    ∃ u, Later libc s u ∧ (handlers libc).hold (fetch run k k 0 files) w =
      ((some (),files.append run key),(u,fun n => w.2 (n+2))) := by
  let keyType : UInt8 := if run.keyType=1 then 0x01 else 0x00
  obtain ⟨p,u,hu,-,hindex,hdata,hp⟩ := hold_pairKey hw hk hkey (halloc 0)
    (rfl : (keyInfo keyType 0x10).data = _) files
  let files' : KeyFiles := { files with test := writeKeyToFileBitFormat files.test p run.stack }
  obtain ⟨p',u',hu',-,hindex',hdata',hp'⟩ := hold_pairKey (w := (u,fun n => w.2 (n+1))) hu hk hkey
    (halloc 1) (rfl : (keyInfo keyType 0x11).data = _) files'
  refine ⟨u',hu',?_⟩
  have hrole : keyType=QkdKeyInfoType.symmetric.code ∨ (0x11 : UInt8)=16 ↔ ¬ run.keyType=1 := by
    by_cases h : run.keyType=1
    · simp only [keyType,if_pos h,h,not_true,iff_false]
      decide
    · simp only [keyType,if_neg h,h,not_false_iff,iff_true]
      exact Or.inl rfl
  rw [if_pos (Or.inr rfl)] at hdata
  simp only [hrole,ite_not] at hdata'
  rw [fetch,Client.hold_bind hp,Client.hold_bind (Client.hold_modify _ _ _ _),Client.hold_bind hp',
    Client.hold_modify]
  simp only [files',write_eq _ hindex,write_eq _ hindex',hdata,hdata',KeyFiles.append,peerKey]

variable (libc) in
/-- A whole run. -/
lemma hold_getKey [OpenSsl] {w : Server σ × (ℕ → Circumstances)}
    (halloc : ∀ n, (w.2 n).env.allocated=true) (run : Run) (files : KeyFiles) :
    ∃ key u, Later libc w.1 u ∧ pairKey libc u (source,destination) 0 = some key ∧
      (handlers libc).hold (getKey run files) w =
        ((some (),files.append run key),(u,fun n => w.2 (n+6))) := by
  obtain ⟨k,s,hs,hk,hopen⟩ := hold_first_open (Later.refl libc w.1)
    (r := ⟨source,destination,qos,Uuid.nil⟩) rfl files
  obtain ⟨key,hkey⟩ := exists_pairKey libc hk 0
  have hk' : k=Uuid.nil ∧ source=source ∧ destination=destination ∨ k=k ∧ k≠Uuid.nil := by
    by_cases hnil : k=Uuid.nil
    · exact Or.inl ⟨hnil,rfl,rfl⟩
    · exact Or.inr ⟨rfl,hnil⟩
  obtain ⟨u₁,hu₁,hopen'⟩ := hold_second_open (w := (s,fun n => w.2 (n+1))) (Later.refl libc s)
    (r := ⟨source,destination,qos,k⟩) hk hk' files
  obtain ⟨u₂,hu₂,hfetch⟩ := hold_fetch (w := (u₁,fun n => w.2 (n+2))) hu₁ hk hkey
    (fun n => halloc (n+2)) run files
  obtain ⟨u₃,hu₃,hclose⟩ := hold_close (w := (u₂,fun n => w.2 (n+4))) hu₂ ⟨k⟩
    (files.append run key)
  obtain ⟨u₄,hu₄,hclose'⟩ := hold_close (w := (u₃,fun n => w.2 (n+5))) hu₃ ⟨k⟩
    (files.append run key)
  refine ⟨key,u₄,hs.trans hu₄,hu₄.pairKey_eq hkey,?_⟩
  rw [getKey,Client.hold_bind hopen,Client.hold_bind hopen',Client.hold_bind hfetch,
    Client.hold_bind hclose,Client.hold_bind hclose']
  rfl

/-- The files once any number of runs have appended one key. -/
def KeyFiles.appendAll (files : KeyFiles) (runs : List Run) (key : Bytes) : KeyFiles where
  test := files.test ++ (runs.map fun _ => (0,key)).flatMap keyRecord
  test_ := files.test_ ++ (runs.map fun run => (0,peerKey run key)).flatMap keyRecord

lemma append_appendAll (files : KeyFiles) (run : Run) (runs : List Run) (key : Bytes) :
    (files.append run key).appendAll runs key = files.appendAll (run::runs) key := by
  simp only [KeyFiles.appendAll,KeyFiles.append,List.map_cons,List.flatMap_cons,List.append_assoc]

variable (libc) in
/-- All runs meet the same key, which is the one that the pair has, if it has one. -/
lemma hold_getKeys [OpenSsl] {w : Server σ × (ℕ → Circumstances)}
    (halloc : ∀ n, (w.2 n).env.allocated=true) (runs : List Run) (files : KeyFiles) :
    ∃ key w', Later libc w.1 w'.1 ∧
      (∀ key', pairKey libc w.1 (source,destination) 0 = some key' → key'=key) ∧
      (runs≠[] → pairKey libc w'.1 (source,destination) 0 = some key) ∧
      (handlers libc).hold (getKeys runs files) w =
        ((some (),files.appendAll runs key),w') := by
  induction runs generalizing w files with
  | nil =>
    refine ⟨(pairKey libc w.1 (source,destination) 0).getD [],w,Later.refl libc _,?_,
      fun h => absurd rfl h,?_⟩
    · intro key' hkey'
      rw [hkey',Option.getD_some]
    · simp only [KeyFiles.appendAll,List.map_nil,List.flatMap_nil,List.append_nil]
      rfl
  | cons run runs ih =>
    obtain ⟨key,u,hu,hkey,hrun⟩ := hold_getKey libc halloc run files
    obtain ⟨_,w',hw',hsame,-,hruns⟩ := ih (w := (u,fun n => w.2 (n+6))) (fun n => halloc (n+6))
      (files.append run key)
    obtain rfl := hsame key hkey
    refine ⟨key,w',hu.trans hw',?_,fun _ => hw'.pairKey_eq hkey,?_⟩
    · intro key' hkey'
      exact Option.some.inj ((hu.pairKey_eq hkey').symm.trans hkey)
    · rw [getKeys,Client.hold_bind hrun,hruns,append_appendAll]

/-- The example client, called any number of times, over the network and in any company. If the loop
is listening when a call of it comes, the two frames of the call fit into one record, and there is
memory for the keys, then it always returns. It appends one and the same key to the first file every
time, under the same index, which is the key of the pair if that had a stream before, and to the
second file that key or what the receiver of an oblivious key is given of it. Both files are read
back in full. -/
theorem example_files [OpenSsl] {s : Server σ} {runs : List Run} {files : KeyFiles}
    {old old_ : List (UInt32 × Bytes)} (hfile : files.test = old.flatMap keyRecord)
    (hfile_ : files.test_ = old_.flatMap keyRecord) (halloc : ∀ n, (c n).env.allocated=true)
    (hreach : (network libc).Throughout (CallReaches libc) (getKeys runs files)
      (⟨.listening,s⟩,c)) :
    ∃ key files' w, (network libc).hold (getKeys runs files) (⟨.listening,s⟩,c) =
        ((some (),files'),w) ∧ w.1.status=.listening ∧
      (∀ key', pairKey libc s (source,destination) 0 = some key' → key'=key) ∧
      (runs≠[] → pairKey libc w.1.server (source,destination) 0 = some key) ∧
      readKeyFile files'.test = some (old ++ runs.map fun _ => (0,key)) ∧
      readKeyFile files'.test_ = some (old_ ++ runs.map fun run =>
        (0,if run.keyType=1 then key.mapIdx obliviousMask else key)) := by
  obtain ⟨key,w,-,hbefore,hkey,hrun⟩ := hold_getKeys libc (w := (s,c)) halloc runs files
  refine ⟨key,_,_,network_hold (w := (s,c)) hreach hrun,rfl,hbefore,hkey,?_,?_⟩
  · rw [KeyFiles.appendAll,hfile,← List.flatMap_append,readKeyFile_records]
  · rw [KeyFiles.appendAll,hfile_,← List.flatMap_append,readKeyFile_records]
    rfl

section Scenario

/-- The program makes no other than moderate requests. -/
lemma getKeys_only (runs : List Run) : Client.Only Request.Moderate (getKeys runs) := by
  have hopen (k : Uuid) : Client.Only Request.Moderate (Client.openConnectStruct (φ := KeyFiles)
      ⟨source,destination,qos,k⟩) :=
    Client.only_call ⟨of_decide_eq_true rfl,of_decide_eq_true rfl,of_decide_eq_true rfl⟩ _
  have hget (k : Uuid) (keyType keyRole : UInt8) : Client.Only Request.Moderate
      (Client.getKeyStruct (φ := KeyFiles) ⟨k,0,keyInfo keyType keyRole⟩) :=
    Client.only_call (of_decide_eq_true rfl : 2 ≤ 4096) _
  have hclose (k : Uuid) : Client.Only Request.Moderate (Client.closeStruct (φ := KeyFiles) ⟨k⟩) :=
    Client.only_call trivial _
  have hfetch (run : Run) (k k' : Uuid) : Client.Only Request.Moderate (fetch run k k' 0) := by
    refine (hget _ _ _).bind fun _ => (Client.only_modify _ _).bind fun _ => ?_
    exact (hget _ _ _).bind fun _ => Client.only_modify _ _
  induction runs with
  | nil => exact Client.only_pure _ _
  | cons run runs ih =>
    refine Client.Only.bind ?_ fun _ => ih
    refine (hopen _).bind fun _ => (hopen _).bind fun _ => (hfetch _ _ _).bind fun _ => ?_
    exact (hclose _).bind fun _ => (hclose _).bind fun _ => Client.only_pure _ _

end Scenario

section Plain
open PlainSsl

/-- Three runs of the program, for either type of key, behind a file with one key. Other clients open
streams and fetch keys before each of its calls. -/
theorem example_files_thrice :
    let start : Process UInt32 := ⟨.listening,Server.start 32768 (49/100) 1⟩
    let run (keyType : UInt8) : Run := ⟨keyType,fun _ => 0,fun _ => 0⟩
    let files : KeyFiles := ⟨keyRecord (5,[1,2]),[]⟩
    ∃ key files' w, (network ansiPrng).hold (getKeys [run 1,run 0,run 1] files) (start,fun _ => busy) =
        ((some (),files'),w) ∧
      readKeyFile files'.test = some [(5,[1,2]),(0,key),(0,key),(0,key)] ∧
      readKeyFile files'.test_ =
        some [(0,key.mapIdx obliviousMask),(0,key),(0,key.mapIdx obliviousMask)] := by
  intro start run files
  have hworld : ModerateWorld (start,fun _ => busy) :=
    ⟨⟨_,rfl,moderate_start⟩,fun _ => busy_moderate⟩
  have hreach : (network ansiPrng).Throughout (CallReaches ansiPrng)
      (getKeys [run 1,run 0,run 1] files) (start,fun _ => busy) :=
    moderate_reaches (getKeys_only _ files) hworld
  have hfile : files.test = [(5,[1,2])].flatMap keyRecord := (List.append_nil _).symm
  have hfile_ : files.test_ = ([] : List (UInt32 × Bytes)).flatMap keyRecord := rfl
  obtain ⟨key,files',w,hrun,-,-,-,htest,htest_⟩ := example_files hfile hfile_ (fun _ => rfl) hreach
  exact ⟨key,files',w,hrun,htest,htest_⟩

end Plain

end Example
end EtsiQkd004
