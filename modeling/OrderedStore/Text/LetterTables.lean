/-
The Latin letters and digits that stand for characters of other kinds, in
rows: an alphabet or a part of one, each by its first code point. A character
that is in no row, and one that its row has a dash for, has no letters at all.
-/

namespace OrderedStore.Text

/-- Consecutive characters and the letters that stand for each. -/
structure LetterRow where
  /-- The code point of the first character. -/
  first : Nat
  /-- What stands for the characters from there on. -/
  letters : Array (List Char)

/-- The row whose characters have the words of `lines` in turn. Only letters
and digits of a word count, so a dash stands for nothing. -/
def LetterRow.ofLines (first : Nat) (lines : List String) : LetterRow where
  first := first
  letters := ((lines.flatMap fun line => line.splitOn " ").map fun word =>
    word.toList.filter Char.isAlphanum).toArray

/-- What the row has for a code point. -/
def LetterRow.letters? (row : LetterRow) (n : Nat) : Option (List Char) :=
  if row.first ≤ n then row.letters[n - row.first]? else none

-- ====================================================== Latin letters

/-- Latin letters with marks, further Latin letters and those of phonetics. -/
def latinRows : List LetterRow := [
  .ofLines 0xA7
    ["ss - c a - - - r - deg - 2 3 - u p - - 1 o - 14 12 34 - a a a a a a ae c e e e",
     "e i i i i d n o o o o o x o u u u u y th ss a a a a a a ae c e e e e i i i i d",
     "n o o o o o - o u u u u y th y a a a a a a c c c c c c c c d d d d e e e e e e",
     "e e e e g g g g g g g g h h h h i i i i i i i i i i ij ij j j k k k l l l l l",
     "l l l l l n n n n n n n ng ng o o o o o o oe oe r r r r r r s s s s s s s s t",
     "t t t t t u u u u u u u u u u u u w w y y y z z z z z z s b b b b 6 6 o c c d",
     "d d d d 3 - e f f g g hv i i k k l l w n n o o o oi oi p p yr 2 2 sh sh t t t",
     "t u u y v y y z z zh zh zh zh 2 5 5 ts w - - - - dz dz dz lj lj lj nj nj nj a",
     "a i i o o u u u u u u u u u u - a a a a ae ae g g g g k k o o o o zh zh j dz",
     "dz dz g g hv w n n a a ae ae o o a a a a e e e e i i i i o o o o r r r r u u u",
     "u s s t t y y h h n d ou ou z z a a e e o o o o o o o o y y l n t j db qp a c",
     "c l t s z - - b u v e e j j q q r r y y a a a b o c d d e - - e e e e j g g g",
     "g u y h h i i i l l l lz w w m n n n o oe o f r r r r r r r r r s s j s s t t",
     "u u v - w y y z z z z - - - c - b e g h j k l q - - dz dz dz ts ts tc fn ls lz",
     "ww - h h h h j r r r r w y"],
  .ofLines 0x2C5
    ["v - v"],
  .ofLines 0x2D5
    ["v"],
  .ofLines 0x2DE
    ["r x g l s x - 5 4 3 2 1 - - v - - v - - - o"]]

-- ============================================================== Greek

/-- Greek letters, and Latin letters written above others. -/
def greekRows : List LetterRow := [
  .ofLines 0x363
    ["a e i o u c d h m r t v x h h s s - - w w - - i s s s"],
  .ofLines 0x386
    ["a - e e i - o - u o i a b g d e z e th i k l m n x o p r - s t u ph kh ps o i",
     "u a e e i u a b g d e z e th i k l m n x o p r s s t u ph kh ps o i u o u o -",
     "b th u u u ph p - q q st st w w q q sp sp sh sh f f kh kh h h g g ch ch ti ti",
     "k r c j - e - sh sh c s s r s s s"]]

-- =========================================================== Cyrillic

/-- Cyrillic letters. -/
def cyrillicRows : List LetterRow := [
  .ofLines 0x400
    ["ie io dj gj ie dz i yi j lj nj tsh kj i u dzh a b v g d e zh z i i k l m n o p",
     "r s t u f kh ts ch sh shch - y - e iu ia a b v g d e zh z i i k l m n o p r s",
     "t u f kh ts ch sh shch - y - e iu ia ie io dj gj ie dz i yi j lj nj tsh kj i u",
     "dzh o o e e ie ie e e ie ie o o io io ks ks ps ps f f y y y y u u o o o o ot",
     "ot q q - - - - - - 100000 1000000 jh jh - - r r g g g g g g zh zh z z k k k k",
     "k k k k n n ng ng p p kh kh s s t t u u u u kh kh tts tts ch ch ch ch h h ch",
     "ch ch ch h zh zh k k lh lh n n nh nh ch ch mh mh h a a a a ae ae ie ie - - - -",
     "zh zh z z dz dz i i i i o o o o o o e e u u u u u u ch ch gh gh y y xh xh x x",
     "h h d d dj dj zj zj dz dz lj lj nj nj sj sj tj tj a a l l lkh lkh rkh rkh a a",
     "q q w w q q l l n n ph ph - - ny ny dzh dzh dch dch l l"]]

-- ================================================ Armenian and Hebrew

/-- Armenian and Hebrew letters. -/
def armenianHebrewRows : List LetterRow := [
  .ofLines 0x531
    ["a b g d e z e e t zh i l kh ts k h dz gh ch m y n sh o ch p j rh s v t r ts w",
     "p k o f"],
  .ofLines 0x560
    ["a a b g d e z e e t zh i l kh ts k h dz gh ch m y n sh o ch p j rh s v t r ts",
     "w p k o f ew h"],
  .ofLines 0x5B1
    ["e a o i e e a a o o u - - - - - h - - - - - o"],
  .ofLines 0x5D1
    ["b g d h v z kh t y k k l m m n n s - p p ts ts q r sh t - - - - yyy v oy i"]]

-- ======================================= the scripts of the Near East

/-- Arabic letters and digits, and the letters of Syriac, Thaana, N'Ko, Samaritan
and Mandaic. -/
def nearEastRows : List LetterRow := [
  .ofLines 0x615
    ["t i z a u i - - - - - y - a - w - y - b - t th j h kh d dh r z s sh s d t z -",
     "g g g y i i - f q k l m n h w - y an un in a u i w - a - - a u n e e e a o a -",
     "0 1 2 3 4 5 6 7 8 9 - - - - b q - - - - - - w u y tt tth b t t p th bh h h ny",
     "dy h ch cch dd d d dt dh ddh d d d rr r r r r r r j r s s s s s t gh f f f v f",
     "ph q q kh k k k ng k g g n g g g l l l l n n n n n h ch hy h h - w oe oe u yu",
     "yu w v y y y w e ny y y - ae"],
  .ofLines 0x6EE
    ["d r 0 1 2 3 4 5 6 7 8 9 sh d gh - m h"],
  .ofLines 0x712
    ["b g g d d h w z h t t y yh k l m n s s - p p s q r sh t bh gh dh a a a a a a e",
     "e e e i i u u u o - - - - - x q - - - - - - zh kh ph y p p c ny p c h ch dd d",
     "r sh ng ng g p v g ng k b m n nn n sl z z s j ch s z j a aa i ii y o oo e ee",
     "ch s s g h sh n r b l k - v m f dh th l g ny s d z t y p j ch tt hh kh th z sh",
     "s d t z - gh q w a aa i ee u oo e ey o oa - n"],
  .ofLines 0x7C0
    ["0 1 2 3 4 5 6 7 8 9 a e i e u o o - n b p t j c d r rr s gb f k l n m ny n h w",
     "y ny j c r - - - - - - - n"],
  .ofLines 0x801
    ["b g d h w z h t y k l m n s - f s q r sh t - - - - y y e e a a a a a a a a u u",
     "i i i o - - o"],
  .ofLines 0x840
    ["a b g d h u z h t i k l m n s e p s q r sh t d k"],
  .ofLines 0x860
    ["ng j ny t n n bh r l l s"],
  .ofLines 0x884
    ["u y y - - n h th th g - - le pt"],
  .ofLines 0x8A0
    ["b b j t f gb zl m y y r w y - dz ts kh w z n k q b p t r y f q n p t t c k gy",
     "ky j j l gr y"],
  .ofLines 0x8E4
    ["a u i a u i - - - - - - a u i hu a a i - - - - - - o u"]]

-- =============================================== the scripts of India

/-- Letters, vowel signs and digits of the scripts of India and Sri Lanka. -/
def indianRows : List LetterRow := [
  .ofLines 0x900
    ["m n n h a a aa i ii u uu r l en e e ai on o o au k kh g gh ng c ch j jh ny tt",
     "tth dd ddh nn t th d dh n nnn p ph b bh m y r rr l l lll v sh ss s h o o - -",
     "aa i ii u uu r rr en e e ai on o o au - e a aum - - - - e u u q khh ghh z dddh",
     "rh f yy rr ll l ll - - 0 1 2 3 4 5 6 7 8 9 - - a o o a u u d zh y g j - d b n",
     "n n h - a aa i ii u uu r rr - - e ai - - o au k kh g gh ng c ch j jh ny tt tth",
     "dd ddh nn t th d dh n - p ph b bh m y r - l - - - sh ss s h - - - - aa i ii u",
     "uu r rr - - e ai - - o au - t"],
  .ofLines 0x9DC
    ["rr rh - yy rr ll l ll - - 0 1 2 3 4 5 6 7 8 9 r r - - 1 2 3 4 11 16 - - om - -",
     "- - n n - - a aa i ii u uu - - - - ee ai - - oo au k kh g gh ng c ch j jh ny",
     "tt tth dd ddh nn t th d dh n - p ph b bb m y r - l ll - v sh - s h - - - - aa",
     "i ii u uu - - - - ee ai - - oo au"],
  .ofLines 0xA59
    ["khh ghh z rr - f - - - - - - - 0 1 2 3 4 5 6 7 8 9 n h - - geo y"],
  .ofLines 0xA81
    ["n n h - a aa i ii u uu r l en - e ai on - o au k kh g gh ng c ch j jh ny tt",
     "tth dd ddh nn t th d dh n - p ph b bh m ya r - l ll - v sh ss s h - - - - aa i",
     "ii u uu r rr en - e ai on - o au - - - aum"],
  .ofLines 0xAE0
    ["rr l l l - - 0 1 2 3 4 5 6 7 8 9"],
  .ofLines 0xAF9
    ["zh - - - - - - - n n h - a aa i ii u uu r l - - e ai - - o au k kh g gh ng c",
     "ch j jh ny tt tth dd ddh nn t th d dh n - p ph b bh m y r - l ll - v sh ss s h",
     "- - - - aa i ii u uu r r - - e ai - - o au"],
  .ofLines 0xB5C
    ["rr rh - yy rr ll l l - - 0 1 2 3 4 5 6 7 8 9 - w 1 2 3 1 2 3"],
  .ofLines 0xB82
    ["n h - a aa i ii u uu - - - e ee ai - o oo au k - - - ng c - j - ny tt - - - nn",
     "t - - - n nnn p - - - m y r rr l ll lll v s ss s h - - - - aa i ii u uu - - -",
     "e ee ai - o oo au - - - om"],
  .ofLines 0xBE6
    ["0 1 2 3 4 5 6 7 8 9 10 100 1000"],
  .ofLines 0xC00
    ["m n n h m a aa i ii u uu r l - e ee ai - o oo au k kh g gh ng c ch j jh ny tt",
     "tth dd ddh nn t th d dh n - p ph b bh m y r rr l ll l v sh ss s h - - - - aa i",
     "ii u uu r rr - e ee ai - o oo au"],
  .ofLines 0xC58
    ["c j r - - n - - rr ll l l - - 0 1 2 3 4 5 6 7 8 9"],
  .ofLines 0xC78
    ["0 1 2 3 1 2 3 - m m n h - a aa i ii u uu r l - e ee ai - o oo au k kh g gh ng",
     "c ch j jh ny tt tth dd ddh nn t th d dh n - p ph b bh m y r rr l ll - v sh ss",
     "s h - - - - aa i ii u uu r rr - e ee ai - o oo au"],
  .ofLines 0xCDD
    ["n lll - rr ll l l - - 0 1 2 3 4 5 6 7 8 9 - - - m"],
  .ofLines 0xD00
    ["m m n h m a aa i ii u uu r l - e ee ai - o oo au k kh g gh ng c ch j jh ny tt",
     "tth dd ddh nn t th d dh n n p ph b bh m y r rr l ll lll v sh ss s h t - - - aa",
     "i ii u uu r r - e ee ai - o oo au - r - - - - - m y l - 2 8 12 16 32 48 64 a",
     "rr ll l l - - 0 1 2 3 4 5 6 7 8 9 10 100 1000 80 160 240 20 40 60 - n n r l l",
     "k - m n h - a aa ae aae i ii u uu r rr l ll e ee ai o oo au - - - k kh g gh ng",
     "nng c ch j jh ny jny nyj tt tth dd ddh nn nndd t th d dh n - nd p ph b bh m mb",
     "y r - l - - v sh ss s h ll f"],
  .ofLines 0xDCF
    ["aa ae aae i ii u - uu - r e ee ai o oo au l - - - - - - 0 1 2 3 4 5 6 7 8 9 -",
     "- rr ll"]]

-- ===================================== Thai, Lao, Tibetan and Burmese

/-- Thai, Lao, Tibetan and Burmese letters and digits. -/
def southeastRows : List LetterRow := [
  .ofLines 0xE01
    ["k kh kh kh kh kh ng cch ch ch ch ch y d t th th th n d t th th th n b p ph f",
     "ph f ph m y r r l l w s s s h l - h - a a aa am i ii ue uue u uu - - - - - - e",
     "ae o ai ai ao - - - - - - - m - - 0 1 2 3 4 5 6 7 8 9"],
  .ofLines 0xE81
    ["k kh - kh - gh ng ch ch s - jh ny ny t th d dh n d h th th dh n b p ph f ph f",
     "bh m y r - l - w sh s s h l - h - a a aa am i ii y yy u uu - o l ny - - e ei o",
     "ay ai"],
  .ofLines 0xECD
    ["m - - 0 1 2 3 4 5 6 7 8 9 - - hn hm g ny"],
  .ofLines 0xF00
    ["aum"],
  .ofLines 0xF20
    ["0 1 2 3 4 5 6 7 8 9 5 15 25 35 45 55 65 75 85 5"],
  .ofLines 0xF40
    ["k kh g gh ng c ch j - ny tt tth dd ddh nn t th d dh n p ph b bh m ts tsh dz",
     "dzh w zh z - y r l sh ssh s h a kss r q r - - - - aa i ii u uu r rr l ll e ee",
     "o oo m h i ii m m - - - - h h h h h h h h k kh g gh ng c ch j - ny tt tth dd",
     "ddh nn t th d dh n p ph b bh m ts tsh dz dzh w zh z - y r l sh ss s h a kss w",
     "y r"],
  .ofLines 0x1000
    ["k kh g gh ng c ch j jh ny nny tt tth dd ddh nn tt th d dh n p ph b bh m y r l",
     "w s h ll a - i ii u uu e e o au a aa i ii u uu e ai i o e n - - - - y r v h ss",
     "0 1 2 3 4 5 6 7 8 9 - - - - - - sh ss r rr l ll r rr l ll n jh b b n m l sh o",
     "- - th pw o u - - - - - n yw ghw i o u e k kh g c z n d n ph f b x h w a e e",
     "ai - - - - - - - f - 0 1 2 3 4 5 6 7 8 9 - - a ai"]]

-- ====================================== Georgian, Hangul and Ethiopic

/-- Georgian letters, Hangul letters and Ethiopic syllables. -/
def georgianRows : List LetterRow := [
  .ofLines 0x10A0
    ["a b g d e v z t i k l m n o p zh r s t u p k gh q sh ch ts dz ts ch kh j h e y",
     "w q o"],
  .ofLines 0x10D0
    ["a b g d e v z t i k l m n o p zh r s t u p k g q sh ch c z c ch x j h e y w xh",
     "oe f e h g - - n ae - w g gg n d dd r m b bb s ss - j jj c k t p h ng nn nd nb",
     "dg rn rr rh rn mb mn bg bn bd bs bsg bst bsb bss bsj bj bc bt bp bn bbn sg sn",
     "sd sr sm sb sbg sss s sj sc sk st sp sh s ss s ss z g d m b s z - j c t p n j",
     "j jj j jj ck ch ch ch pb pn hh q gd ns nj nh dr - - a ae ya yae eo e yeo ye o",
     "wa wae oe yo u weo we wi yu eu yi i ao au yao yayo eoo eou eoeu yeoo yeou oeo",
     "oe oye oo ou yoya yoyae yoyeo yoo yoi ua uae ueoeu uye uu yua yueo yue yuyeo",
     "yuye yuu yui euu eueu yiu ia iya io iu ieu iu u ueo uu ui uu aeu yau yeoya oya",
     "oyae g gg gs n nj nh d l lg lm lb ls lt lp lh m b bs s ss ng j c k t p h gl",
     "gsg ng nd ns nz nt dg tl lgs ln ld lth ll lmg lms lbs lbh rnp lss lz lk lq mg",
     "ml mb ms mss mz mc mh mn bl bp ph pn sg sd sl sb z g ss - kh n ns nz pb pn hn",
     "hl hm hb q gn gb gch gk gh nn ha hu hi haa hee he ho hoa la lu li laa lee le",
     "lo lwa hha hhu hhi hhaa hhee hhe hho hhwa ma mu mi maa mee me mo mwa sza szu",
     "szi szaa szee sze szo szwa ra ru ri raa ree re ro rwa sa su si saa see se so",
     "swa sha shu shi shaa shee she sho shwa qa qu qi qaa qee qe qo qoa qwa - qwi",
     "qwaa qwee qwe - - qha qhu qhi qhaa qhee qhe qho - qhwa - qhwi qhwaa qhwee qhwe",
     "- - ba bu bi baa bee be bo bwa va vu vi vaa vee ve vo vwa ta tu ti taa tee te",
     "to twa ca cu ci caa cee ce co cwa xa xu xi xaa xee xe xo xoa xwa - xwi xwaa",
     "xwee xwe - - na nu ni naa nee ne no nwa nya nyu nyi nyaa nyee nye nyo nywa a u",
     "i aa ee e o wa ka ku ki kaa kee ke ko koa kwa - kwi kwaa kwee kwe - - kxa kxu",
     "kxi kxaa kxee kxe kxo - kxwa - kxwi kxwaa kxwee kxwe - - wa wu wi waa wee we",
     "wo woa a u i aa ee e o - za zu zi zaa zee ze zo zwa zha zhu zhi zhaa zhee zhe",
     "zho zhwa ya yu yi yaa yee ye yo yoa da du di daa dee de do dwa dda ddu ddi",
     "ddaa ddee dde ddo ddwa ja ju ji jaa jee je jo jwa ga gu gi gaa gee ge go goa",
     "gwa - gwi gwaa gwee gwe - - gga ggu ggi ggaa ggee gge ggo ggwaa tha thu thi",
     "thaa thee the tho thwa cha chu chi chaa chee che cho chwa pha phu phi phaa",
     "phee phe pho phwa tsa tsu tsi tsaa tsee tse tso tswa tza tzu tzi tzaa tzee tze",
     "tzo tzoa fa fu fi faa fee fe fo fwa pa pu pi paa pee pe po pwa rya mya fya"],
  .ofLines 0x1369
    ["1 2 3 4 5 6 7 8 9 10 20 30 40 50 60 70 80 90 100 10000 - - - mwe mwi mwe mwi",
     "bwe bwi bwe bwi fwe fwi fwe fwi pwe pwi pwe pwi"]]

-- ==================================== Cherokee and Canadian syllabics

/-- Cherokee and Canadian syllables. -/
def cherokeeRows : List LetterRow := [
  .ofLines 0x13A0
    ["a e i o u v ga ka ge gi go gu gv ha he hi ho hu hv la le li lo lu lv ma me mi",
     "mo mu na hna nah ne ni no nu nv qua que qui quo quu quv sa s se si so su sv da",
     "ta de te di ti do du dv dla tla tle tli tlo tlu tlv tsa tse tsi tso tsu tsv wa",
     "we wi wo wu wv ya ye yi yo yu yv mv - - ye yi yo yu yv mv - - - e aai i ii o",
     "oo oo ee i a aa we we wi wi wii wii wo wo woo woo woo wa wa waa waa waa ai w -",
     "t k sh s n w - h w c y - en in on an pe paai pi pii po poo poo hee hi pa paa",
     "pwe pwe pwi pwi pwii pwii pwo pwo pwoo pwoo pwa pwa pwaa pwaa pwaa p p h te",
     "taai ti tii to too too dee di ta taa twe twe twi twi twii twii two two twoo",
     "twoo twa twa twaa twaa twaa t tte tti tto tta ke kaai ki kii ko koo koo ka kaa",
     "kwe kwe kwi kwi kwii kwii kwo kwo kwoo kwoo kwa kwa kwaa kwaa kwaa k kw keh",
     "kih koh kah ce caai ci cii co coo coo ca caa cwe cwe cwi cwi cwii cwii cwo cwo",
     "cwoo cwoo cwa cwa cwaa cwaa cwaa c th me maai mi mii mo moo moo ma maa mwe mwe",
     "mwi mwi mwii mwii mwo mwo mwoo mwoo mwa mwa mwaa mwaa mwaa m m mh m m ne naai",
     "ni nii no noo noo na naa nwe nwe nwa nwa nwaa nwaa nwaa n ng nh le laai li lii",
     "lo loo loo la laa lwe lwe lwi lwi lwii lwii lwo lwo lwoo lwoo lwa lwa lwaa",
     "lwaa l l l se saai si sii so soo soo sa saa swe swe swi swi swii swii swo swo",
     "swoo swoo swa swa swaa swaa swaa s s sw s sk skw sw spwa stwa skwa scwa she",
     "shi shii sho shoo sha shaa shwe shwe shwi shwi shwii shwii shwo shwo shwoo",
     "shwoo shwa shwa shwaa shwaa sh ye yaai yi yii yo yoo yoo ya yaa ywe ywe ywi",
     "ywi ywii ywii ywo ywo ywoo ywoo ywa ywa ywaa ywaa ywaa y y y yi re re le raai",
     "ri rii ro roo lo ra raa la rwaa rwaa r r r fe faai fi fii fo foo fa faa fwaa",
     "fwaa f the the thi thi thii thii tho thoo tha thaa thwaa thwaa th tthe tthi",
     "ttho ttha tth tye tyi tyo tya he hi hii ho hoo ha haa h h hk qaai qi qii qo",
     "qoo qa qaa q tlhe tlhi tlho tlha re ri ro ra ngaai ngi ngii ngo ngoo nga ngaa",
     "ng nng she shi sho sha the thi tho tha th lhi lhii lho lhoo lha lhaa lh the",
     "thi thii tho thoo tha thaa th b e i o a we wi wo wa ne ni no na ke ki ko ka he",
     "hi ho ha ghu gho ghe ghee ghi gha ru ro re ree ri ra wu wo we wee wi wa hwu",
     "hwo hwe hwee hwi hwa thu tho the thee thi tha ttu tto tte ttee tti tta pu po",
     "pe pee pi pa p gu go ge gee gi ga khu kho khe khee khi kha kku kko kke kkee",
     "kki kka kk nu no ne nee ni na mu mo me mee mi ma yu yo ye yee yi ya ju ju jo",
     "je jee ji ji ja jju jjo jje jjee jji jja lu lo le lee li la dlu dlo dle dlee",
     "dli dla lhu lho lhe lhee lhi lha tlhu tlho tlhe tlhee tlhi tlha tlu tlo tle",
     "tlee tli tla zu zo ze zee zi za z z dzu dzo dze dzee dzi dza su so se see si",
     "sa shu sho she shee shi sha sh tsu tso tse tsee tsi tsa chu cho che chee chi",
     "cha ttsu ttso ttse ttsee ttsi ttsa - stop qai ngai nngi nngii nngo nngoo nnga",
     "nngaa thwe thwi thwii thwo thwoo thwa thwaa th w"]]

-- ================================ Ogham, runes and Philippine scripts

/-- Ogham, runes and the letters of the Philippine scripts. -/
def runicRows : List LetterRow := [
  .ofLines 0x1681
    ["b l f s n h d t c q m g ng z r a o u e i ch th ph p x p - - - - - f v u yr y w",
     "th th a o ac ae o o o oe on r k c k g ng g g w h h h h n n n i e j g ae a eo p",
     "z s s s c z t t d b b p p e m m m l l ng ng d o ear ior qu qu qu s yr yr yr q",
     "x - - - 17 18 19 k sh oo o i e a ae - - - - - - - a i u k g ng t d n p b m y r",
     "l w s h i u"],
  .ofLines 0x171F
    ["r a i u k g ng t d n p b m y r l w s h i u"],
  .ofLines 0x1740
    ["a i u k g ng t d n p b m y r l w s h i u"],
  .ofLines 0x1760
    ["a i u k g ng t d n p b m y - l w s - i u"]]

-- ================================================ Khmer and Mongolian

/-- Khmer and Mongolian letters and digits. -/
def khmerMongolianRows : List LetterRow := [
  .ofLines 0x1780
    ["k kh g gh ng c ch j jh ny t tth d ddh nn t th d dh n p ph b bh m y r l v sh ss",
     "s h l q a aa i ii u uk uu uuv ry ryy ly lyy e ai oo oo au a aa aa i ii y yy u",
     "uu ua oe ya ie e ae ai oo au m h a - - a r - - - a"],
  .ofLines 0x17E0
    ["0 1 2 3 4 5 6 7 8 9 - - - - - - 0 1 2 3 4 5 6 7 8 9"],
  .ofLines 0x1810
    ["0 1 2 3 4 5 6 7 8 9 - - - - - - a e i o u o u ee n ng b p q g m l s sh t d ch",
     "j y r w f k kha ts z h zr lh zh ch - e i o u o u ng b p q g m t d ch j ts y w",
     "k g h jy ny dz e i iy u u ng k g h p sh t d j f g h ts z r ch zh i k r f zh"],
  .ofLines 0x1880
    ["n x x w w 3 333 a i k ng c tt tth dd nn t d p ph ss zh z ah t zh gh ng c jh tt",
     "ddh t dh ss cy zh z u y bh - lh - - - - - oy ay aay way poy pay pwoy tay kay",
     "kway may noy nay lay soy say shoy shay shwoy yoy yay ray nwi nwi nwii nwii nwo",
     "nwo nwoo nwoo rwe rwi rwii rwo rwoo rwa p t k c m n s sh w w w w rwe loo laa",
     "thwe thwa tthwe tthoo tthaa tlwe tloo shwe shoo hoo gwu ge gaa gwa juu jwa l r",
     "s"]]

-- ================================================== Limbu to Ol Chiki

/-- Limbu, Tai, Buginese, Balinese, Sundanese, Batak, Lepcha and Ol Chiki letters
and digits. -/
def limbuRows : List LetterRow := [
  .ofLines 0x1901
    ["k kh g gh ng c ch j jh n t th d dh n p ph b bh m y r l w sh s s h gy tr - a i",
     "u e ai o au e o y r v - - - - k ng m t n p m r l"],
  .ofLines 0x1946
    ["0 1 2 3 4 5 6 7 8 9 g x ng z s y d t l b p m f w h - k c n aa i e e u o o ue e",
     "au ai"],
  .ofLines 0x1982
    ["g k ng g k ng z s y z s y d t n d t n b p m b p m f w l f w l h d b h d b gw",
     "kw gw kw sw sw - - - - - a i u u e ae o oa ue ai aai ui oi oai uei i w ng n m",
     "k d b"],
  .ofLines 0x19D0
    ["0 1 2 3 4 5 6 7 8 9 1"],
  .ofLines 0x1A00
    ["k g ng ngk p b m mp t d n nr c j ny nc y r l w s a h i u e o e - - - - k kh kh",
     "k kh kh ng c ch c s ch ny t th d th n t th t th n b p ph f p f ph m ny y r r l",
     "l w sh s s h l - h i i u u e o ae s r l lng ng ng p th m b s - - a a a a i i",
     "ue ue u u o o oy e ae o ai ai o m"],
  .ofLines 0x1A80
    ["0 1 2 3 4 5 6 7 8 9 - - - - - - 0 1 2 3 4 5 6 7 8 9"],
  .ofLines 0x1ABF
    ["w w"],
  .ofLines 0x1ACC
    ["g r t"],
  .ofLines 0x1B00
    ["m m ng r h a a i i u u re ro le lo e ai o au k kh g gh ng c ch j jh ny t th d",
     "dh n t th d dh n p ph b bh m y r l w s s s h - a i i u u re ro le lo e ai o au",
     "e o - q kh ts f v z sh jny - - - 0 1 2 3 4 5 6 7 8 9"],
  .ofLines 0x1B80
    ["ng r h a i u e o e eu k q g ng c j z ny t d n p f v b m y r l w s x h y r l i",
     "u e o e eu - - m w kh sy 0 1 2 3 4 5 6 7 8 9 - reu leu bh k m - - h h h b b p",
     "p n n w w w g g j d r r m m t t s s s y y ng l l ny c nd mb i u - e e e i i o",
     "o u u ng h"],
  .ofLines 0x1C00
    ["k kl kh g gl ng c ch j ny t th d n p pl ph f fl b bl m ml ts tsh z y r l h hl",
     "v s sh w - y r a i o o u u e k m l n p r t ng ng"],
  .ofLines 0x1C40
    ["0 1 2 3 4 5 6 7 8 9 - - - t th d 0 1 2 3 4 5 6 7 8 9 a t g m l a k j m w i s h",
     "ny r u c d n y e p d n r o t b n h m - m"]]

-- ================================= Latin and Greek letters with marks

/-- Latin and Greek letters with one or more marks, raised and lowered letters, and
capitals of Georgian. -/
def markedRows : List LetterRow := [
  .ofLines 0x1C80
    ["v d o s t t - e u - - - - - - - a b g d e v z t i k l m n o p zh r s t u p k g",
     "q sh ch c z c ch x j h e y w xh oe f e h g - - - ae - w"],
  .ofLines 0x1CE2
    ["h h h h h h h m m m m - m m m m h h - h h - - - m - - - - - a ae ae b c d - e",
     "e i j k l m n o o o o o oe ou o o p r r t u u - m v w z zh - - g l p r ps l a",
     "ae b b d e e g h i j k l m n n o ou p r t u w a a a ae b d e - e e g i k m - o",
     "o o o p t u u w v - b g d f ch i r u v b g r f ch ue b d f m n p r r s t z g n",
     "g th i - p u - b d f g k l m n p r s - v x z a - d e e e - i o - u - a c c - e",
     "f j g y i i i i j l l l m m n n n o - s sh t u u u v v z z z zh th"],
  .ofLines 0x1DCA
    ["r - - - - - is r us a ae ao av c d d g g k l l m n n r r s s z a b b e f l o p",
     "sh u w a o u"],
  .ofLines 0x1E00
    ["a a b b b b b b c c d d d d d d d d d d e e e e e e e e e e f f g g h h h h h",
     "h h h h h i i i i k k k k k k l l l l l l l l m m m m m m n n n n n n n n o o",
     "o o o o o o p p p p r r r r r r r r s s s s s s s s s s t t t t t t t t u u u",
     "u u u u u u u v v v v w w w w w w w w w w x x x x y y z z z z z z h t w y a s",
     "s s ss d a a a a a a a a a a a a a a a a a a a a a a a a e e e e e e e e e e e",
     "e e e e e i i i i o o o o o o o o o o o o o o o o o o o o o o o o u u u u u u",
     "u u u u u u u u y y y y y y y y ll ll v v y y a a a a a a a a a a a a a a a a",
     "e e e e e e - - e e e e e e - - e e e e e e e e e e e e e e e e i i i i i i i",
     "i i i i i i i i i o o o o o o - - o o o o o o - - u u u u u u u u - u - u - u",
     "- u o o o o o o o o o o o o o o o o a a e e e e i i o o u u o o - - a a a a a",
     "a a a a a a a a a a a e e e e e e e e e e e e e e e e o o o o o o o o o o o o",
     "o o o o a a a a a - a a a a a a a - i - - - e e e - e e e e e e e - - - i i i",
     "i - - i i i i i i - - - - u u u u r r u u u u u u r - - - - - o o o - o o o o",
     "o o o"]]

-- ================================================== signs and numbers

/-- Small raised and lowered letters, fractions, Roman and framed numerals, and the
names of signs. -/
def signRows : List LetterRow := [
  .ofLines 0x2070
    ["0 i - - 4 5 6 7 8 9 - - - - - n 0 1 2 3 4 5 6 7 8 9 - - - - - - a e o x - h k",
     "l m n p s t"],
  .ofLines 0x20AC
    ["eur"],
  .ofLines 0x2100
    ["ac as c - - co cu e - - g h h h h h i i l l - n no - - p q r r r - - sm tel tm",
     "- z - - - z - k a b c - e e f - m o a b g d informationsource - fax p g g p -",
     "- - - - d d e i j - - - - f - 17 19 110 13 23 15 25 35 45 16 56 18 38 58 78 1",
     "i ii iii iv v vi vii viii ix x xi xii l c d m i ii iii iv v vi vii viii ix x",
     "xi xii l c d m d d - - c 6 l 50000 100000 03"],
  .ofLines 0x231A
    ["watch hourglass"],
  .ofLines 0x2328
    ["keyboard"],
  .ofLines 0x23CF
    ["eject"],
  .ofLines 0x23E9
    ["fastforward rewind arrowdoubleup arrowdoubledown tracknext trackprevious",
     "playpause alarmclock stopwatch timer hourglassflowingsand - - - - pausebutton",
     "stopbutton recordbutton"],
  .ofLines 0x2460
    ["1 2 3 4 5 6 7 8 9 10 11 12 13 14 15 16 17 18 19 20 1 2 3 4 5 6 7 8 9 10 11 12",
     "13 14 15 16 17 18 19 20 1 2 3 4 5 6 7 8 9 10 11 12 13 14 15 16 17 18 19 20 a b",
     "c d e f g h i j k l m n o p q r s t u v w x y z a b c d e f g h i j k l m n o",
     "p q r s t u v w x y z a b c d e f g h i j k l m n o p q r s t u v w x y z 0 11",
     "12 13 14 15 16 17 18 19 20 1 2 3 4 5 6 7 8 9 10 0"],
  .ofLines 0x2601
    ["cloud umbrella snowman comet"],
  .ofLines 0x260E
    ["telephone - - v - - umbrella coffee - - shamrock - - - - pointup - -",
     "skullcrossbones - radioactive biohazard - - orthodoxcross - - -",
     "starandcrescent - - - peace yinyang"],
  .ofLines 0x2638
    ["wheelofdharma - - - - - - - femalesign - malesign - - - - - aries taurus",
     "gemini cancer leo virgo libra scorpius sagittarius capricorn aquarius pisces"],
  .ofLines 0x265F
    ["chesspawn spades - - clubs - hearts diamonds - hotsprings"],
  .ofLines 0x267B
    ["recycle - - inf wheelchair"],
  .ofLines 0x2692
    ["hammerpick anchor crossedswords medicalsymbol scales alembic - gear - atom",
     "fleurdelis - - - warning zap - - - - - transgendersymbol - - whitecircle",
     "blackcircle - - - - coffin urn"],
  .ofLines 0x26BD
    ["soccer baseball - - - - - snowman partlysunny - - thundercloudrain - - - - -",
     "ophiuchus pick - helmetwithcross - chains noentry"],
  .ofLines 0x26E9
    ["shintoshrine church - - - - - mountain beachumbrella fountain golf ferry boat",
     "- skier iceskate basketballer tent - - fuelpump - - - - scissors - -",
     "whitecheckmark - - airplane envelope fist raisedhand v writinghand - pencil2 -",
     "- blacknib - checkmark - x"],
  .ofLines 0x2721
    ["starofdavid - - - - - - sparkles"],
  .ofLines 0x2744
    ["snowflake - - - - - - - x - negativesquaredcrossmark"],
  .ofLines 0x2763
    ["heartexclamation heart"],
  .ofLines 0x2776
    ["1 2 3 4 5 6 7 8 9 10 1 2 3 4 5 6 7 8 9 10 1 2 3 4 5 6 7 8 9 10"],
  .ofLines 0x27B0
    ["curlyloop"],
  .ofLines 0x27BF
    ["loop"],
  .ofLines 0x2934
    ["arrowheadingup arrowheadingdown"],
  .ofLines 0x2B07
    ["v"],
  .ofLines 0x2B55
    ["o"]]

-- ============================================= Glagolitic to Ethiopic

/-- Glagolitic, Coptic, Georgian and Tifinagh letters, Ethiopic syllables, and
Cyrillic letters written above others. -/
def glagoliticRows : List LetterRow := [
  .ofLines 0x2C00
    ["a b v g d e zh dz z i i i g k l m n o p r s t u f kh o p sht ts ch sh u i e kh",
     "iu e e io ie o io th u y a m ch a b v g d e zh dz z i i i g k l m n o p r s t",
     "u f kh o p sht ts ch sh u i e kh iu e e io ie o io th u y a m ch l l l p r a t",
     "h h k k z z - m a - v w w v h h - e r o e j v s z a a b b g g d d e e s s z z",
     "e e th th i i k k l l m m n n ks ks o o p p r r s s t t u u ph ph kh kh ps ps",
     "o o - - - - e e k k n n n n o o s s sh sh sh sh sh sh kh kh h h h h h h h h h",
     "h h h g g j j c c s s ng ng ny ny w w ke - - - - - - sh sh g g - - - kh kh"],
  .ofLines 0x2D00
    ["a b g d e v z t i k l m n o p zh r s t u p k gh q sh ch ts dz ts ch kh j h e y",
     "w q o - e - - - - - ae - - a b b g g j j d d d d e f k k k h h h h - x x q q i",
     "zh zh zh l m n gn ng p u r r gh gh gh s s sh t t ch t v w y z z z e o - - - -",
     "- - - w"],
  .ofLines 0x2D80
    ["loa moa roa soa shoa boa toa coa noa nyoa oa zoa doa doa joa thoa choa phoa",
     "poa gwe gwi gwe gwi"],
  .ofLines 0x2DA0
    ["se su si sa se si so - ce cu ci ca ce ci co - ze zu zi za ze zi zo - che chu",
     "chi cha che chi cho - qye qyu qyi qya qye qyi qyo - kye kyu kyi kya kye kyi",
     "kyo - xye xyu xyi xya xye xyi xyo - gye gyu gyi gya gye gyi gyo - b v g d zh z",
     "k l m n o p r s t kh ts ch sh shch f st a ie dj u ie yu ia e e ie"]]

-- ================================== kana, bopomofo and Hangul letters

/-- Kana, bopomofo, Hangul letters and squared units. -/
def kanaRows : List LetterRow := [
  .ofLines 0x3007
    ["0"],
  .ofLines 0x3021
    ["1 2 3 4 5 6 7 8 9"],
  .ofLines 0x3038
    ["10 20 30 - masu partalternationmark - - - a a i i u u e e o o ka ga ki gi ku",
     "gu ke ge ko go sa za si zi su zu se ze so zo ta da ti di tu tu du te de to do",
     "na ni nu ne no ha ba pa hi bi pi hu bu pu he be pe ho bo po ma mi mu me mo ya",
     "ya yu yu yo yo ra ri ru re ro wa wa wi we wo n vu ka ke"],
  .ofLines 0x309F
    ["yori - a a i i u u e e o o ka ga ki gi ku gu ke ge ko go sa za si zi su zu se",
     "ze so zo ta da ti di tu tu du te de to do na ni nu ne no ha ba pa hi bi pi hu",
     "bu pu he be pe ho bo po ma mi mu me mo ya ya yu yu yo yo ra ri ru re ro wa wa",
     "wi we wo n vu ka ke va vi ve vo - - - - koto - - - - - b p m f d t n l g k h j",
     "q x zh ch sh r z c s a o e eh ai ei au ou an en ang eng er i u iu v ng gn - -",
     "- - g gg gs n nj nh d dd r lg lm lb ls lt lp rh m b bb bs s ss - j jj c k t p",
     "h a ae ya yae eo e yeo ye o wa wae oe yo u weo we wi yu eu yi i - nn nd ns nz",
     "lgs ld lbs lz lq mb ms mz mn bg - bsg bst bj bt bn bbn sg sn sd sb sj z - n ns",
     "nz pn hh q yoya yoyae yoi yuyeo yuye yui u ui - - - 1 2 3 4"],
  .ofLines 0x31A0
    ["bu zi ji gu ee enn oo onn ir ann inn unn im ngg ainn aunn am om ong innn p t k",
     "h g gw kw k y e yu a"],
  .ofLines 0x31F0
    ["ku si su to nu ha hi fu he ho mu ra ri ru re ro"],
  .ofLines 0x3220
    ["1 2 3 4 5 6 7 8 9 10"],
  .ofLines 0x3251
    ["21 22 23 24 25 26 27 28 29 30 31 32 33 34 35"],
  .ofLines 0x3280
    ["1 2 3 4 5 6 7 8 9 10"],
  .ofLines 0x3297
    ["zhu - mi"],
  .ofLines 0x32B1
    ["36 37 38 39 40 41 42 43 44 45 46 47 48 49 50"],
  .ofLines 0x32D0
    ["a i u e o ka ki ku ke ko sa si su se so ta ti tu te to na ni nu ne no ha hi hu",
     "he ho ma mi mu me mo ya yu yo ra ri ru re ro wa wi we wo"],
  .ofLines 0x3371
    ["hpa da au bar ov pc dm dm2 dm3 iu - - - - - pa na - ma ka kb mb gb cal kcal pf",
     "nf - - mg kg hz khz mhz ghz thz - ml dl kl fm nm - mm cm km mm2 cm2 m2 km2 mm3",
     "cm3 m3 km3 - - pa kpa mpa gpa rad - - ps ns - ms pv nv - mv kv mv pw nw - mw",
     "kw mw - - am bq cc cd - co db gy ha hp in kk km kt lm ln log lx mb mil mol ph",
     "pm ppm pr sr sv wb"]]

-- =================================================== Yi, Lisu and Vai

/-- Yi and Vai syllables and Lisu letters. -/
def yiRows : List LetterRow := [
  .ofLines 0xA000
    ["it ix i ip iet iex ie iep at ax a ap uox uo uop ot ox o op ex e wu bit bix bi",
     "bip biet biex bie biep bat bax ba bap buox buo buop bot box bo bop bex be bep",
     "but bux bu bup burx bur byt byx by byp byrx byr pit pix pi pip piex pie piep",
     "pat pax pa pap puox puo puop pot pox po pop put pux pu pup purx pur pyt pyx py",
     "pyp pyrx pyr bbit bbix bbi bbip bbiet bbiex bbie bbiep bbat bbax bba bbap",
     "bbuox bbuo bbuop bbot bbox bbo bbop bbex bbe bbep bbut bbux bbu bbup bburx",
     "bbur bbyt bbyx bby bbyp nbit nbix nbi nbip nbiex nbie nbiep nbat nbax nba nbap",
     "nbot nbox nbo nbop nbut nbux nbu nbup nburx nbur nbyt nbyx nby nbyp nbyrx nbyr",
     "hmit hmix hmi hmip hmiex hmie hmiep hmat hmax hma hmap hmuox hmuo hmuop hmot",
     "hmox hmo hmop hmut hmux hmu hmup hmurx hmur hmyx hmy hmyp hmyrx hmyr mit mix",
     "mi mip miex mie miep mat max ma map muot muox muo muop mot mox mo mop mex me",
     "mut mux mu mup murx mur myt myx my myp fit fix fi fip fat fax fa fap fox fo",
     "fop fut fux fu fup furx fur fyt fyx fy fyp vit vix vi vip viet viex vie viep",
     "vat vax va vap vot vox vo vop vex vep vut vux vu vup vurx vur vyt vyx vy vyp",
     "vyrx vyr dit dix di dip diex die diep dat dax da dap duox duo dot dox do dop",
     "dex de dep dut dux du dup durx dur tit tix ti tip tiex tie tiep tat tax ta tap",
     "tuot tuox tuo tuop tot tox to top tex te tep tut tux tu tup turx tur ddit ddix",
     "ddi ddip ddiex ddie ddiep ddat ddax dda ddap dduox dduo dduop ddot ddox ddo",
     "ddop ddex dde ddep ddut ddux ddu ddup ddurx ddur ndit ndix ndi ndip ndiex ndie",
     "ndat ndax nda ndap ndot ndox ndo ndop ndex nde ndep ndut ndux ndu ndup ndurx",
     "ndur hnit hnix hni hnip hniet hniex hnie hniep hnat hnax hna hnap hnuox hnuo",
     "hnot hnox hnop hnex hne hnep hnut nit nix ni nip niex nie niep nax na nap nuox",
     "nuo nuop not nox no nop nex ne nep nut nux nu nup nurx nur hlit hlix hli hlip",
     "hliex hlie hliep hlat hlax hla hlap hluox hluo hluop hlox hlo hlop hlex hle",
     "hlep hlut hlux hlu hlup hlurx hlur hlyt hlyx hly hlyp hlyrx hlyr lit lix li",
     "lip liet liex lie liep lat lax la lap luot luox luo luop lot lox lo lop lex le",
     "lep lut lux lu lup lurx lur lyt lyx ly lyp lyrx lyr git gix gi gip giet giex",
     "gie giep gat gax ga gap guot guox guo guop got gox go gop get gex ge gep gut",
     "gux gu gup gurx gur kit kix ki kip kiex kie kiep kat kax ka kap kuox kuo kuop",
     "kot kox ko kop ket kex ke kep kut kux ku kup kurx kur ggit ggix ggi ggiex ggie",
     "ggiep ggat ggax gga ggap gguot gguox gguo gguop ggot ggox ggo ggop gget ggex",
     "gge ggep ggut ggux ggu ggup ggurx ggur mgiex mgie mgat mgax mga mgap mguox",
     "mguo mguop mgot mgox mgo mgop mgex mge mgep mgut mgux mgu mgup mgurx mgur hxit",
     "hxix hxi hxip hxiet hxiex hxie hxiep hxat hxax hxa hxap hxuot hxuox hxuo hxuop",
     "hxot hxox hxo hxop hxex hxe hxep ngiex ngie ngiep ngat ngax nga ngap nguot",
     "nguox nguo ngot ngox ngo ngop ngex nge ngep hit hiex hie hat hax ha hap huot",
     "huox huo huop hot hox ho hop hex he hep wat wax wa wap wuox wuo wuop wox wo",
     "wop wex we wep zit zix zi zip ziex zie ziep zat zax za zap zuox zuo zuop zot",
     "zox zo zop zex ze zep zut zux zu zup zurx zur zyt zyx zy zyp zyrx zyr cit cix",
     "ci cip ciet ciex cie ciep cat cax ca cap cuox cuo cuop cot cox co cop cex ce",
     "cep cut cux cu cup curx cur cyt cyx cy cyp cyrx cyr zzit zzix zzi zzip zziet",
     "zziex zzie zziep zzat zzax zza zzap zzox zzo zzop zzex zze zzep zzux zzu zzup",
     "zzurx zzur zzyt zzyx zzy zzyp zzyrx zzyr nzit nzix nzi nzip nziex nzie nziep",
     "nzat nzax nza nzap nzuox nzuo nzox nzop nzex nze nzux nzu nzup nzurx nzur nzyt",
     "nzyx nzy nzyp nzyrx nzyr sit six si sip siex sie siep sat sax sa sap suox suo",
     "suop sot sox so sop sex se sep sut sux su sup surx sur syt syx sy syp syrx syr",
     "ssit ssix ssi ssip ssiex ssie ssiep ssat ssax ssa ssap ssot ssox sso ssop ssex",
     "sse ssep ssut ssux ssu ssup ssyt ssyx ssy ssyp ssyrx ssyr zhat zhax zha zhap",
     "zhuox zhuo zhuop zhot zhox zho zhop zhet zhex zhe zhep zhut zhux zhu zhup",
     "zhurx zhur zhyt zhyx zhy zhyp zhyrx zhyr chat chax cha chap chuot chuox chuo",
     "chuop chot chox cho chop chet chex che chep chux chu chup churx chur chyt chyx",
     "chy chyp chyrx chyr rrax rra rruox rruo rrot rrox rro rrop rret rrex rre rrep",
     "rrut rrux rru rrup rrurx rrur rryt rryx rry rryp rryrx rryr nrat nrax nra nrap",
     "nrox nro nrop nret nrex nre nrep nrut nrux nru nrup nrurx nrur nryt nryx nry",
     "nryp nryrx nryr shat shax sha shap shuox shuo shuop shot shox sho shop shet",
     "shex she shep shut shux shu shup shurx shur shyt shyx shy shyp shyrx shyr rat",
     "rax ra rap ruox ruo ruop rot rox ro rop rex re rep rut rux ru rup rurx rur ryt",
     "ryx ry ryp ryrx ryr jit jix ji jip jiet jiex jie jiep juot juox juo juop jot",
     "jox jo jop jut jux ju jup jurx jur jyt jyx jy jyp jyrx jyr qit qix qi qip qiet",
     "qiex qie qiep quot quox quo quop qot qox qo qop qut qux qu qup qurx qur qyt",
     "qyx qy qyp qyrx qyr jjit jjix jji jjip jjiet jjiex jjie jjiep jjuox jjuo jjuop",
     "jjot jjox jjo jjop jjut jjux jju jjup jjurx jjur jjyt jjyx jjy jjyp njit njix",
     "nji njip njiet njiex njie njiep njuox njuo njot njox njo njop njux nju njup",
     "njurx njur njyt njyx njy njyp njyrx njyr nyit nyix nyi nyip nyiet nyiex nyie",
     "nyiep nyuox nyuo nyuop nyot nyox nyo nyop nyut nyux nyu nyup xit xix xi xip",
     "xiet xiex xie xiep xuox xuo xot xox xo xop xyt xyx xy xyp xyrx xyr yit yix yi",
     "yip yiet yiex yie yiep yuot yuox yuo yuop yot yox yo yop yut yux yu yup yurx",
     "yur yyt yyx yy yyp yyrx yyr - - - qot li kit nyip cyp ssi ggop gep mi hxit lyr",
     "bbut mop yo put hxuo tat ga zup cyt ddur bur gguo nyop tu op jjut zot pyt hmo",
     "yit vur shy vep za jo nzup jjy got jjie wo du shur lie cy cuop cip hxop shat",
     "zur shop che zziet nbie ke"],
  .ofLines 0xA4D0
    ["bb b p dd d t gg g k jj j q zz z c m n l s r ss ng h h x f w x y e a ai ei ei",
     "i o u ue v e l q x r - t - - e e he we we pe bhe be mbe kpe mgbe gbe fe ve te",
     "the dhe dhhe le re de nde se she ze zhe ce je nje ye ke ngge ge me ne nye i i",
     "hi hi wi wi pi bhi bi mbi kpi mgbi gbi fi vi ti thi dhi dhhi li ri di ndi si",
     "shi zi zhi ci ji nji yi ki nggi gi mi ni nyi a a nga ha ha wa wa pa bha ba mba",
     "kpa kpa mgba gba fa va ta tha dha dhha la ra da nda sa sha za zha ca ja nja ya",
     "ka ka ngga ga ma na nya o o ho wo wo po bho bo mbo kpo mgbo gbo fo vo to tho",
     "dho dhho lo ro do ndo so sho zo zho co jo njo yo ko nggo go mo no nyo u u hu",
     "hu wu wu pu bhu bu mbu kpu mgbu gbu fu vu tu thu dhu dhhu lu ru du ndu su shu",
     "zu zhu cu ju nju yu ku nggu gu mu nu nyu o o ngo ho ho wo wo po bho bo mbo kpo",
     "mgbo gbo gbo fo vo to tho dho dhho lo ro do ndo so sho zo zho co jo njo yo ko",
     "nggo go mo no nyo e e nge he he we we pe bhe be mbe kpe kpe mgbe gbe gbe fe ve",
     "te the dhe dhhe le re de nde se she ze zhe ce je nje ye ke ngge ngge ge ge me",
     "ne nye ng - - - - fa ka so feeng keeng ting nii bang faa taa dang doong kung",
     "tong doo - 0 1 2 3 4 5 6 7 8 9 ma do"]]

-- ==================================== more Cyrillic and Latin letters

/-- Cyrillic and Latin letters of old manuscripts and of dialects. -/
def moreLatinRows : List LetterRow := [
  .ofLines 0xA640
    ["z z dz dz z z i i dj dj u u o o o o y y ie ie yu yu ia ia e e e e ie ie yn yn",
     "ts ts d d l l m m o o o o o o o - 10000000 100000000 1000000000 - ie i yi u -",
     "y - o - - - - dw dw dzw dzw zhw zhw cch cch dz dz t t tw tw tsw tsw ts ts tch",
     "tch hw hw shw shw oo oo o o - - f ie"],
  .ofLines 0xA722
    ["a a - - - - tz tz 3 3 4 4 4 4 f s aa aa ao ao au au av av av av ay ay c c k k",
     "k k k k l l l l o o o o oo oo p p p p p p q q q q r r r r v v vy vy z z th th",
     "th th - - et et s s con con us d l m n r r t - d d f f g g g l l r r s s t t -",
     "- - - - h l - n n c c c h b b f f ae ae oe oe ue ue g g k k n n r r s s h e g",
     "l i q k t j - b b - - u u a a i i u u o o w w c s z d d s s - - - - - g g -",
     "thth - ww s s s s"],
  .ofLines 0xA7F2
    ["c f q h h i"]]

-- ======================================= Syloti Nagri to Meetei Mayek

/-- Letters and digits of the younger blocks of India and its neighbours, with further
Hangul letters, Ethiopic and Cherokee syllables. -/
def nagriRows : List LetterRow := [
  .ofLines 0xA7F8
    ["h - w f p m i m a i - u e o - k kh g gh m c ch j jh t th d dh t th d dh n p ph",
     "b bh m r l r s h a i u e o"],
  .ofLines 0xA840
    ["k kh g ng c ch j ny t th d n p ph b m ts tsh dz w zh z a y r l sh s h a i u e",
     "o q x f g e w y t th d n y sh h f r r m"],
  .ofLines 0xA880
    ["m h a a i i u u r r l l e e ai o o au k kh g gh n c ch j jh n t th d dh n t th",
     "d dh n p ph b bh m y r l v s s s h l h a i i u u r r l l e e ai o o au - m"],
  .ofLines 0xA8D0
    ["0 1 2 3 4 5 6 7 8 9 - - - - - - 0 1 2 3 4 5 6 7 8 9 a u k n p r v - m"],
  .ofLines 0xA8FD
    ["om ay ay 0 1 2 3 4 5 6 7 8 9 k kh g ng s sh z ny t ht n p ph m d b r y l w th",
     "h v c a oe i o ue e u e o - - - - - k g ng t d n p b m c j ny s r l y w h mb",
     "ngg nd nyj a i u e ai o au eu ea ng n r h"],
  .ofLines 0xA960
    ["dm db ds dj rg rgg rd rdd rm rb rbb rbh rs rj rk mg md ms bst bk bh ssb l h",
     "jjh tt ph hs hh - - - m ng r h a i i i u r l l e ai o k k k g g ng c c j j j",
     "ny t t d d n t t d d n p p b b m y r r l w s s s h - a o i i u u e ai e r y r"],
  .ofLines 0xA9D0
    ["0 1 2 3 4 5 6 7 8 9 - - - - - - gh c jh n bh - - ny f g gh c j th d dh 0 1 2 3",
     "4 5 6 7 8 9 l d dh b bh - a i u e ai o k kh g gh ng ng ch ch j jh nh nh nj t",
     "th d dh n n d p p ph b bh m m b y r l v s s h a i i ei u oe o ai au ue y r l w"],
  .ofLines 0xAA40
    ["k g ng ng ch t n p y r l s m h - - 0 1 2 3 4 5 6 7 8 9 - - - - - - g c ch j jh",
     "n t th d dh n s h - f z - - - - oay qn hm - - - r - - - sh s k k kh kh kh kh g",
     "g ng ng c c ch ch s s ny ny d d t t th th n n b b p p ph ph f f m m y y r r l",
     "l v v h h - - a a i ue u e o - ia uea ua aue ay an am"],
  .ofLines 0xAADB
    ["kon nueng - - - e o ch ny t th d dh n sh s i u ai au au - - - - - h"],
  .ofLines 0xAB01
    ["thu thi tha the thi tho - - dhu dhi dha dhe dhi dho - - dzu dzi dza dze dzi",
     "dzo"],
  .ofLines 0xAB20
    ["che chu chi cha che chi cho - be bu bi ba be bi bo - - a e e e f g l l l m n -",
     "o o o oe oe oe o o r r r - r - r r - u u - - u ch ch ch x x x x y - - l l u -",
     "- oe - - o dz ts r w - - - - - - a e i o u v ga ka ge gi go gu gv ha he hi ho",
     "hu hv la le li lo lu lv ma me mi mo mu na hna nah ne ni no nu nv qua que qui",
     "quo quu quv sa s se si so su sv da ta de te di ti do du dv dla tla tle tli tlo",
     "tlu tlv tsa tse tsi tso tsu tsv wa we wi wo wu wv ya k s l m p n ch t kh ng th",
     "w y h u i ph a g jh r b j d gh dh bh k l m p n t ng i o i a e ou u ei ng - - -",
     "- - 0 1 2 3 4 5 6 7 8 9"],
  .ofLines 0xD7B0
    ["oyeo ooi yoa yoae yoeo uyeo uii yuae yuo eua eueo eue euo iyao iyae iyeo iye",
     "ioi iyo iyu ii ua ue - - - - nl nch dd ddb db ds dsg dj dch dt lgg lgh llk lmh",
     "lbd lbp lng lhh lh mn mnn mm mbs mj bd blp bm bb bsd bj bch sm sbh ssg ssd sz",
     "sj sch st sh zb zbh ngm ngh jb jbb jj ps pt"]]

-- ============================================= doubled Han characters

/-- Readings of the Han characters that are encoded twice. -/
def doubledHanRows : List LetterRow := [
  .ofLines 0xF900
    ["kay kayng ke ko kol koc kwi kwi kyun kul kum na na na la na na na na na nak",
     "nak nak nak nak nak nak nan nan nan nan nan nan nam nam nam nam nap nap nap",
     "nang nang nang nang nang nay nayng no no no no no no no no no no no no nok nok",
     "nok nok nok nok non nong nong nong nong noy noy noy noy nwu nwu nwu nwu nwu",
     "nwu nwu nwu nuk nuk num nung nung nung nung nung twu la lak lak lan lyeng lo",
     "lyul li pey pen pyen pwu pwul pi sak sak sam sayk sayng sep sey sway sin sim",
     "sip ya yak yak yang yang yang yang yang yang yang yang ye ye ye ye ye ye ye ye",
     "ye ye ye yek yek yek yek yen yen yen yen yen yen yen yen yen yen yen yen yen",
     "yen yel yel yel yel yel yel yem yem yem yem yem yep yeng yeng yeng yeng yeng",
     "yeng yeng yeng yeng yeng yeng yeng yeng yey yey yey yey o yo yo yo yo yo yo yo",
     "yo yo yo yong wun wen yu yu yu yu yu yu yu yu yu yu yuk yuk yuk yun yun yun",
     "yun yul yul yul yul yung i i i i i i i i i i i i i i ik ik in in in in in in",
     "in im im im ip ip ip cang cek ci cip cha chek chey thak thak thang thayk thong",
     "pho phok hang hang hyen hwak wu huo - - zhong - qing - - xi zhu yi li shen",
     "xiang fu jing jing yu - hagi - zhu - - yi du - - - fan si guan he rang ye wu",
     "seng mian mian qin bei he tan qi ping mo ceng che hui kai zeng cheng min ji",
     "shu mei hai zhu han zhu zhao zuo bei she zhi qi you zu zhu huo zhen gu tu jie",
     "lian jin fan shu zhe chou cao cao zhu he shi ye jin bin zeng chuo yi nan xiang",
     "pin hui - guan - - bing kuang quan xing chong ji yong shao he tao hui wa zhong",
     "fen yan ben bi ci ao yi cai yao wang shen yu zeng ao cheng dai yu sou bing ao",
     "qing lang wang zhang dai sha liu yin zi han jing zhu qiao jue fan zhu tian ci",
     "hua guan wen yi sheng zhi juan zhe tian tiao jie lei tao lian ping zhe huang",
     "hua yun qiang fu shi diao zhu qing ye nuo yu jin bian zeng shu chi sou xing",
     "zhu nan jing bai xiang e pin zhen gui - - - he - jie - - - e pang"]]

-- ====================================== joined and presentation forms

/-- Joined letters, presentation forms and kana of half width. -/
def formRows : List LetterRow := [
  .ofLines 0xFB00
    ["ff fi fl ffi ffl st st"],
  .ofLines 0xFB13
    ["mn me mi vn mkh - - - - - - - ay - - d h k l m r t - sh s sh s a a - b g d h v",
     "z - t y k k l - m - n s - p p - ts q r sh t vo b k p l a a b b b b p p p p bh",
     "bh bh bh th th th th th th th th t t t t v v v v ph ph ph ph dy dy dy dy ny ny",
     "ny ny ch ch ch ch ch ch ch ch dh dh dh dh d d d d zh zh r r k k k k g g g g g",
     "g g g ng ng ng ng n n n n n n h h h h h h h h h h e e e e"],
  .ofLines 0xFBD3
    ["ng ng ng ng u u oe oe yu yu u v v oe oe y y e e e e a a ia ia ie ie iw iw iu",
     "iu ioe ioe iyu iyu ie ie ie ia ia ia y y y y ij ih im ia iy bj bh bkh bm ba by",
     "tj th tkh tm ta ty thj thm tha thy jh jm hj hm khj khh khm sj sh skh sm sh sm",
     "dj dh dkh dm th tm dhm j m ghj ghm fj fh fkh fm fa fy qh qm qa qy ka kj kh kkh",
     "kl km ka ky lj lh lkh lm la ly mj mh mkh mm ma my nj nh nkh nm na ny hj hm ha",
     "hy yj yh ykh ym ya yy dha ra aa un in a u i a ir iz im in ia iy br bz bm bn ba",
     "by tr tz tm tn ta ty thr thz thm thn tha thy fa fy qa qy ka kl km ka ky lm la",
     "ly ma mm nr nz nm nn na ny aa yr yz ym yn ya yy ij ih ikh im ih bj bh bkh bm",
     "bh tj th tkh tm th thm jh jm hj hm khj khm sj sh skh sm sh skh sm dj dh dkh dm",
     "th dhm j m ghj ghm fj fh fkh fm qh qm kj kh kkh kl km lj lh lkh lm lh mj mh",
     "mkh mm nj nh nkh nm nh hj hm ha yj yh ykh ym yh im ih bm bh tm th thm thh sm",
     "sh shm shh kl km lm nm nh ym yh a u i ta ty a y gha ghy sa sy sha shy ha hy ja",
     "jy kha khy sa sy da dy shj shh shkh shm shr sr sr dr ta ty a y gha ghy sa sy",
     "sha shy ha hy ja jy kha khy sa sy da dy shj shh shkh shm shr sr sr dr shj shh",
     "shkh shm sh shh tm sj sh skh shj shh shkh tm dhm aan aan"],
  .ofLines 0xFD50
    ["tjm thj thj thm tkhm tmj tmh tmkh jmh jmh hmy hma shj sjh sja smh smh smj smm",
     "smm shh shh smm shhm shhm shjy shmkh shmkh shmm shmm dha dkhm dkhm tmh tmh tmm",
     "tmy jm mm mm ma ghmm ghmy ghma fkhm fkhm qmh qmm lhm lhy lha ljj ljj lkhm lkhm",
     "lmh lmh mhj mhm mhy mjh mjm mkhj mkhm - - mjkh hmj hmm nhm nha njm njm nja nmy",
     "nma ymm ymm bkhy tjy tja tkhy tkha tmy tma jmy jha jma skha shy shhy dhy ljy",
     "lmy yhy yjy ymy mmy qmy nhy qmh lhm my kmy njh mkhy ljm kmm ljm njh jhy hjy",
     "mjy fmy bhy kmm jm smm skhy njy"],
  .ofLines 0xFDF0
    ["sala qala allah akbar muhammad salam rasul alayh wasallam salla",
     "sallallahualayhiwasallam jallajalaluhu rial bismillaharrahmanarrahim"],
  .ofLines 0xFE70
    ["an an un - in - a a u u i i - - - - - a a a a u u a a i i i i a a b b b b h h",
     "t t t t th th th th j j j j h h h h kh kh kh kh d d dh dh r r z z s s s s sh",
     "sh sh sh s s s s d d d d t t t t dh dh dh dh - - - - gh gh gh gh f f f f q q q",
     "q k k k k l l l l m m m m n n n n h h h h w w a a y y y y la la la la la la la",
     "la"],
  .ofLines 0xFF66
    ["wo a i u e o ya yu yo tu - a i u e o ka ki ku ke ko sa si su se so ta ti tu te",
     "to na ni nu ne no ha hi hu he ho ma mi mu me mo ya yu yo ra ri ru re ro wa n -",
     "- - g gg gs n nj nh d dd r lg lm lb ls lt lp rh m b bb bs s ss - j jj c k t p",
     "h - - - a ae ya yae eo e - - yeo ye o wa wae oe - - yo u weo we wi yu - - eu",
     "yi i"]]

-- =============================================== scripts of antiquity

/-- Linear B syllables, ancient numerals, and the letters of Lycian, Carian, Old
Italic, Gothic, Old Permic, Ugaritic and Old Persian, and of Deseret. -/
def ancientRows : List LetterRow := [
  .ofLines 0x10000
    ["a e i o u da de di do du ja je - jo ju ka ke ki ko ku ma me mi mo mu na ne ni",
     "no nu pa pe pi po pu qa qe qi qo - ra re ri ro ru sa se si so su ta te ti to",
     "tu wa we wi wo - za ze - zo a2 a3 au dwe dwo nwa pu2 pte ra2 ra3 ro2 ta2 twe",
     "two"],
  .ofLines 0x10107
    ["1 2 3 4 5 6 7 8 9 10 20 30 40 50 60 70 80 90 100 200 300 400 500 600 700 800",
     "900 1000 2000 3000 4000 5000 6000 7000 8000 9000 10000 20000 30000 40000 50000",
     "60000 70000 80000 90000"],
  .ofLines 0x10140
    ["14 12 1 5 50 500 5000 50000 5 10 50 100 500 1000 5000 5 10 50 100 500 1000",
     "10000 50000 10 1 1 1 2 2 2 2 5 10 10 10 10 10 30 50 50 50 50 100 300 500 500",
     "500 500 500 1000 5000 5 50 12 12 23 34"],
  .ofLines 0x1018A
    ["0 14"],
  .ofLines 0x10280
    ["a e b b g d i w z th j k q l m n m n u p k r s t t a e h x - - - a p d l u r",
     "ld a q b m o d t sh sh s c u n x n t p s i e u k k nd u g g st st ng i c t u r",
     "mb mb mb mb ld e u"],
  .ofLines 0x102E1
    ["1 2 3 4 5 6 7 8 9 10 20 30 40 50 60 70 80 90 100 200 300 400 500 600 700 800",
     "900 - - - - a b k d e v z h th i k l m n sh o p sh q r s t u x ph kh f rs ch i",
     "u s 1 5 10 50"],
  .ofLines 0x1032D
    ["j ts ts a b g d e q z h th i k l m n j u p 90 r s t w f x hw o 900 - - - - - a",
     "b g d e zh dzh z dz i k l m n v p r s t u ch sh shch y y o o f h ts v - - e ie",
     "yu ya ia a d z n s - - - - - a b g kh d h w z h t y k sh l m dh n z s - p s q",
     "r th gh t i u s - - a i u ka ku ga gu xa ca ja ji ta tu da di du tha pa ba fa",
     "na nu ma mi mu ya va vi ra ru la sa za sha sa ha - - - - auramazda auramazda",
     "auramazdaha xshayathiya dahyaush dahyaush baga bumish - 1 2 10 20 100"],
  .ofLines 0x10400
    ["e a ah aw o oo i e a o u u i ow w y h p b t d ch j k g f v th dh s z sh zh r l",
     "m n ng oy ew e a ah aw o oo i e a o u u i ow w y h p b t d ch j k g f v th dh",
     "s z sh zh r l m n ng oy ew"]]

-- ==================================================== younger scripts

/-- Letters and digits of Nyiakeng Puachue Hmong, Toto, Wancho, Nag Mundari, Mende
Kikakui and Adlam, with raised and lowered Cyrillic letters. -/
def youngRows : List LetterRow := [
  .ofLines 0x1E000
    ["a b v g d e zh - z i i i g k l m n o p r s t u f kh - - sht ts ch sh u i e -",
     "iu e - io ie o io th - - - - - a b v g d e zh z i k l m o p r s t u f kh ts ch",
     "sh y e yu dz a i j o u h a b v g d e zh z i k l o p s u f kh ts ch sh - y g i",
     "dz dzh s y u"],
  .ofLines 0x1E08F
    ["i"],
  .ofLines 0x1E100
    ["m ts nt t h n x nk c l s z nc nts k d ny nr v ntx tx f r q y nq p xy np dl npl",
     "h ml pl g r a a i u o o e e w"],
  .ofLines 0x1E140
    ["0 1 2 3 4 5 6 7 8 9 - - - - nyaj"],
  .ofLines 0x1E290
    ["p b t d k g m n ng s ch y w j h r l i ih iu iuh u e eh eo eoh o ae aeh a"],
  .ofLines 0x1E2C0
    ["a a b c d g y ph l n p t th f s sh j z w v k o au r m kh h e i ng u lh ts tr",
     "ong ang ang ing on en an ny uen yih - - - - 0 1 2 3 4 5 6 7 8 9"],
  .ofLines 0x1E4D0
    ["o p l y ng a j b ny h i s d t h u c d k r e n g m n t l - - - - - 0 1 2 3 4 5",
     "6 7 8 9"],
  .ofLines 0x1E800
    ["ki ka ku ke ke ko ko kua wi wa wu we we wo wo wui wei wvi wva wve mi ma mu me",
     "mo mua mue bi ba bu be be bo bo i a u e e o o ei i i a e si sa su se se so so",
     "sia li la lu le le lo lo le di da du de do do ti ta tu te te to to ji ja ju je",
     "je jo jo jo yi ya yu ye ye yo yo fi fa fu fe fe fo fo fua fa ni na nu ne no hi",
     "ha hu he he ho ho hei hou hi ha hu he ho hua nggi ngga nggu ngge ngge nggo",
     "nggo ngga nggua ngge nggo nggo gi ga gu ge guei gua nge ngo ngua pi pa pu pe",
     "pe po po mbi mba mbu mbe mbe mbe mbo mbo mbu mbe mbo mbo kpi kpa kpu kpe kpe",
     "kpo kpo gbi gba gbu gbe gbe gbo gbo ra ndi nda ndu nde nde ndo ndo nja nju nje",
     "njo vi va vu ve ve vo vo nyi nya nyu nye nyo - - 1 2 3 4 5 6 7 8 9"],
  .ofLines 0x1E900
    ["a d l m b s p b r e f i o d y w n k y u j c h q g ny t ng v kh gb z kp sh a d",
     "l m b s p b r e f i o d y w n k y u j c h q g ny t ng v kh gb z kp sh"],
  .ofLines 0x1E950
    ["0 1 2 3 4 5 6 7 8 9"]]

-- ================================== letters in frames and pictographs

/-- Framed letters and the names of pictographs. -/
def pictographRows : List LetterRow := [
  .ofLines 0x1F004
    ["mahjong"],
  .ofLines 0x1F0CF
    ["blackjoker"],
  .ofLines 0x1F100
    ["0 0 1 2 3 4 5 6 7 8 9 - - - - - a b c d e f g h i j k l m n o p q r s t u v w",
     "x y z - - - - - - a b c d e f g h i j k l m n o p q r s t u v w x y z hv mv sd",
     "ss ppv wc a b c d e f g h i j k l m n o p q r s t u v w x y z mc md mr - - - a",
     "b c d e f g h i j k l m n o2 parking q r s t u v w x y z - - - - ab - - cl",
     "cool free id new ng ok sos up vs"],
  .ofLines 0x1F201
    ["koko sa"],
  .ofLines 0x1F21A
    ["free"],
  .ofLines 0x1F22F
    ["reserved - - prohibited vacant pass full charge month application discount",
     "open"],
  .ofLines 0x1F250
    ["bargain accept"],
  .ofLines 0x1F300
    ["cyclone foggy closedumbrella nightwithstars sunriseovermountains sunrise",
     "citydusk citysunset rainbow bridgeatnight ocean volcano milkyway earthafrica",
     "earthamericas earthasia globewithmeridians newmoon waxingcrescentmoon",
     "firstquartermoon moon fullmoon waninggibbousmoon lastquartermoon",
     "waningcrescentmoon crescentmoon newmoonwithface firstquartermoonwithface",
     "lastquartermoonwithface fullmoonwithface sunwithface - stars thermometer - -",
     "whitesunsmallcloud whitesuncloud whitesunraincloud cloudrain cloudsnow",
     "cloudlightning cloudtornado fog windblowingface hotdog taco burrito chestnut",
     "seedling evergreentree deciduoustree palmtree cactus hotpepper tulip",
     "cherryblossom rose hibiscus sunflower blossom corn earofrice herb",
     "fourleafclover mapleleaf fallenleaf leaves mushroom tomato eggplant grapes",
     "melon watermelon orange lemon banana pineapple apple greenapple pear peach",
     "cherries strawberry hamburger pizza meatonbone poultryleg ricecracker riceball",
     "rice curry ramen spaghetti bread fries sweetpotato dango oden sushi",
     "friedshrimp fishcake icecream shavedice icecream doughnut cookie chocolatebar",
     "candy lollipop custard honeypot cake bento stew friedegg forkandknife tea sake",
     "wineglass cocktail tropicaldrink beer beers babybottle forkknifeplate",
     "champagne popcorn ribbon gift birthday jackolantern christmastree santa",
     "fireworks sparkler balloon tada confettiball tanabatatree crossedflags bamboo",
     "dolls flags windchime ricescene schoolsatchel mortarboard - - militarymedal",
     "reminderribbon - microphone levelslider controlknobs - - filmframes tickets",
     "carouselhorse ferriswheel rollercoaster fishingpoleandfish microphone",
     "moviecamera cinema headphones art tophat circustent ticket clapper",
     "performingarts videogame dart slotmachine 8ball gamedie bowling",
     "flowerplayingcards musicalnote notes saxophone guitar musicalkeyboard trumpet",
     "violin musicalscore runningshirtwithsash tennis ski basketball checkeredflag",
     "snowboarder runner surfer medal trophy horseracing football rugbyfootball",
     "swimmer lifter golfer motorcycle racecar cricketgame volleyball fieldhockey",
     "hockey pingpong mountainsnow camping beach constructionsite homes cityscape",
     "houseabandoned classicalbuilding desert island park stadium house",
     "housewithgarden office postoffice europeanpostoffice hospital bank atm hotel",
     "lovehotel conveniencestore school departmentstore factory lantern",
     "japanesecastle europeancastle - - flagwhite flagblack rosette - label",
     "badminton bowandarrow amphora - - - - - rat mouse2 ox waterbuffalo cow2 tiger2",
     "leopard rabbit2 cat2 dragon crocodile whale2 snail snake racehorse ram goat",
     "sheep monkey rooster chicken dog2 pig2 boar elephant octopus shell bug ant bee",
     "ladybeetle fish tropicalfish blowfish turtle hatchingchick babychick",
     "hatchedchick bird penguin koala poodle dromedarycamel camel dolphin mouse cow",
     "tiger rabbit cat dragonface whale horse monkeyface dog pig frog hamster wolf",
     "bear pandaface pignose feet chipmunk eyes eye ear nose lips tongue pointup2",
     "pointdown pointleft pointright punch wave okhand 1 1 clap openhands crown",
     "womanshat eyeglasses necktie shirt jeans dress kimono bikini womansclothes",
     "purse handbag pouch shoe athleticshoe highheel sandal boot footprints",
     "bustinsilhouette bustsinsilhouette boy girl man woman family couple",
     "twomenholdinghands twowomenholdinghands cop dancers bridewithveil",
     "personwithblondhair manwithguapimao manwithturban olderman olderwoman baby",
     "constructionworker princess japaneseogre japanesegoblin ghost angel alien",
     "spaceinvader imp skull informationdeskperson guardsman dancer lipstick",
     "nailcare massage haircut barber syringe pill kiss loveletter ring gem",
     "couplekiss bouquet couplewithheart wedding heartbeat brokenheart twohearts",
     "sparklingheart heartpulse cupid blueheart greenheart yellowheart purpleheart",
     "giftheart revolvinghearts heartdecoration diamondshapewithadotinside bulb",
     "anger bomb zzz boom sweatdrops droplet dash poop muscle dizzy speechballoon",
     "thoughtballoon whiteflower 100 moneybag currencyexchange - creditcard yen -",
     "euro pound moneywithwings chart seat computer briefcase minidisc floppydisk cd",
     "dvd filefolder openfilefolder pagewithcurl pagefacingup date calendar",
     "cardindex chartwithupwardstrend chartwithdownwardstrend barchart clipboard",
     "pushpin roundpushpin paperclip straightruler triangularruler bookmarktabs",
     "ledger notebook notebookwithdecorativecover closedbook book greenbook bluebook",
     "orangebook books namebadge scroll memo telephonereceiver pager fax satellite",
     "loudspeaker mega outboxtray inboxtray package email incomingenvelope",
     "envelopewitharrow mailboxclosed mailbox mailboxwithmail mailboxwithnomail",
     "postbox postalhorn newspaper iphone calling vibrationmode mobilephoneoff",
     "nomobilephones signalstrength camera camerawithflash videocamera tv radio vhs",
     "projector - prayerbeads twistedrightwardsarrows repeat repeatone",
     "arrowsclockwise arrowscounterclockwise lowbrightness highbrightness mute",
     "speaker sound loudsound battery electricplug mag magright lockwithinkpen",
     "closedlockwithkey key lock unlock bell nobell bookmark link radiobutton back",
     "end on soon top underage keycapten capitalabcd abcd 1234 symbols abc fire",
     "flashlight wrench hammer nutandbolt hocho gun microscope telescope crystalball",
     "sixpointedstar beginner trident blacksquarebutton whitesquarebutton redcircle",
     "largebluecircle largeorangediamond largebluediamond smallorangediamond",
     "smallbluediamond smallredtriangle smallredtriangledown arrowupsmall",
     "arrowdownsmall"],
  .ofLines 0x1F549
    ["omsymbol dove kaaba mosque synagogue menorah - clock1 clock2 clock3 clock4",
     "clock5 clock6 clock7 clock8 clock9 clock10 clock11 clock12 clock130 clock230",
     "clock330 clock430 clock530 clock630 clock730 clock830 clock930 clock1030",
     "clock1130 clock1230 - - - - - - - candle clock - - hole maninsuit spy",
     "darksunglasses spider spiderweb joystick mandancing"],
  .ofLines 0x1F587
    ["paperclips - - pen penfountain paintbrush crayon - - handsplayed - - - - fu",
     "spockhand"],
  .ofLines 0x1F5A4
    ["blackheart desktop - - printer"],
  .ofLines 0x1F5B1
    ["mousethreebutton trackball"],
  .ofLines 0x1F5BC
    ["framephoto - - - - - dividers cardbox filecabinet"],
  .ofLines 0x1F5D1
    ["wastebasket notepad calendar"],
  .ofLines 0x1F5DC
    ["compression key newspaper - - dagger - speakinghead - - - - speechleft - - - -",
     "- - angerright - - - ballotbox - - - - - - map mountfuji tokyotower",
     "statueofliberty japan moyai grinning grin joy smiley smile sweatsmile laughing",
     "innocent smilingimp wink blush yum relieved hearteyes sunglasses smirk",
     "neutralface expressionless unamused sweat pensive confused confounded kissing",
     "kissingheart kissingsmilingeyes kissingclosedeyes stuckouttongue",
     "stuckouttonguewinkingeye stuckouttongueclosedeyes disappointed worried angry",
     "rage cry persevere triumph disappointedrelieved frowning anguished fearful",
     "weary sleepy tiredface grimacing sob openmouth hushed coldsweat scream",
     "astonished flushed sleeping dizzyface nomouth mask smilecat joycat smileycat",
     "hearteyescat smirkcat kissingcat poutingcat cryingcatface screamcat",
     "slightfrown slightsmile upsidedown rollingeyes nogood okwoman bow seenoevil",
     "hearnoevil speaknoevil raisinghand raisedhands personfrowning",
     "personwithpoutingface pray"],
  .ofLines 0x1F680
    ["rocket helicopter steamlocomotive railwaycar bullettrainside bullettrainfront",
     "train2 metro lightrail station tram train bus oncomingbus trolleybus busstop",
     "minibus ambulance fireengine policecar oncomingpolicecar taxi oncomingtaxi car",
     "oncomingautomobile bluecar truck articulatedlorry tractor monorail",
     "mountainrailway suspensionrailway mountaincableway aerialtramway ship rowboat",
     "speedboat trafficlight verticaltrafficlight construction rotatinglight",
     "triangularflagonpost door noentrysign smoking nosmoking putlitterinitsplace",
     "donotlitter potablewater nonpotablewater bike nobicycles bicyclist",
     "mountainbicyclist walking nopedestrians childrencrossing mens womens restroom",
     "babysymbol toilet wc shower bath bathtub passportcontrol customs baggageclaim",
     "leftluggage - - - - - couch sleepingaccommodation shoppingbags bellhop bed",
     "placeofworship octagonalsign shoppingcart - - hindutemple hut elevator - - - -",
     "wireless playgroundslide wheel ringbuoy tools shield oil motorway railwaytrack",
     "motorboat - - - airplane - airplanedeparture airplanearriving - - - satellite",
     "- - cruiseship scooter motorscooter canoe sled flyingsaucer skateboard",
     "autorickshaw pickuptruck rollerskate"],
  .ofLines 0x1F7E0
    ["orangecircle yellowcircle greencircle purplecircle browncircle redsquare",
     "bluesquare orangesquare yellowsquare greensquare purplesquare brownsquare"],
  .ofLines 0x1F90C
    ["pinchedfingers whiteheart brownheart pinchinghand zippermouth moneymouth",
     "thermometerface nerd thinking headbandage robot hugging metal callme",
     "raisedbackofhand leftfacingfist rightfacingfist handshake fingerscrossed",
     "loveyougesture cowboy clown nauseatedface rofl droolingface lyingface facepalm",
     "sneezingface raisedeyebrow starstruck zanyface shushingface cursingface",
     "handovermouth vomitingface explodinghead pregnantwoman breastfeeding",
     "palmsuptogether selfie prince manintuxedo mrsclaus shrug cartwheel juggling",
     "fencer - wrestlers waterpolo handball divingmask wiltedrose drum",
     "champagneglass tumblerglass spoon goal - firstplace secondplace thirdplace",
     "boxingglove martialartsuniform curlingstone lacrosse softball flyingdisc",
     "croissant avocado cucumber bacon potato carrot frenchbread salad",
     "shallowpanoffood stuffedflatbread egg milk peanuts kiwi pancakes dumpling",
     "fortunecookie takeoutbox chopsticks bowlwithspoon cupwithstraw coconut",
     "broccoli pie pretzel cutofmeat sandwich cannedfood leafygreen mango mooncake",
     "bagel smilingfacewiththreehearts yawningface smilingfacewithtear partyingface",
     "woozyface hotface coldface ninja disguisedface faceholdingbacktears",
     "pleadingface sari labcoat goggles hikingboot flatshoe crab lionface scorpion",
     "turkey unicorn eagle duck bat shark owl fox butterfly deer gorilla lizard",
     "rhino shrimp squid giraffe zebra hedgehog sauropod trex cricket kangaroo llama",
     "peacock hippopotamus parrot raccoon lobster mosquito microbe badger swan",
     "mammoth dodo sloth otter orangutan skunk flamingo oyster beaver bison seal",
     "guidedog probingcane - - - - bone leg foot tooth superhero supervillain",
     "safetyvest earwithhearingaid motorizedwheelchair manualwheelchair",
     "mechanicalarm mechanicalleg cheese cupcake salt beveragebox garlic onion",
     "falafel waffle butter mate icecube bubbletea troll standingperson",
     "kneelingperson deafperson monocleface adult child olderadult beardedperson",
     "womanwithheadscarf saunaperson climbing lotusposition mage fairy vampire",
     "merperson elf genie zombie brain orangeheart billedcap scarf gloves coat socks",
     "redenvelope firecracker jigsaw testtube petridish dna compass abacus",
     "fireextinguisher toolbox bricks magnet luggage lotionbottle thread yarn",
     "safetypin teddybear broom basket rollofpaper soap sponge receipt nazaramulet"],
  .ofLines 0x1FA70
    ["balletshoes onepieceswimsuit swimbrief shorts thongsandal lightblueheart",
     "greyheart pinkheart dropofblood adhesivebandage stethoscope xray crutch - - -",
     "yoyo kite parachute boomerang magicwand pinata nestingdolls maracas flute harp",
     "- - - - - shovel ringedplanet chair razor axe diyalamp banjo militaryhelmet",
     "accordion longdrum coin carpentrysaw screwdriver ladder hook mirror window",
     "plunger sewingneedle knot bucket mousetrap toothbrush headstone placard rock",
     "mirrorball identificationcard lowbattery hamsa foldinghandfan hairpick khanda",
     "fly worm beetle cockroach pottedplant wood feather lotus coral emptynest",
     "nestwitheggs hyacinth jellyfish wing leaflesstree goose anatomicalheart lungs",
     "peoplehugging pregnantman pregnantperson personwithcrown fingerprint - - - - -",
     "- - moose donkey blueberries bellpepper olive flatbread tamale fondue teapot",
     "pouringliquid beans jar gingerroot peapod rootvegetable - - splatter",
     "meltingface salutingface facewithopeneyesandhandovermouth facewithpeekingeye",
     "facewithdiagonalmouth dottedlineface bitinglip bubbles shakingface",
     "facewithbagsundereyes - - - - - - handwithindexfingerandthumbcrossed",
     "rightwardshand leftwardshand palmdownhand palmuphand indexpointingattheviewer",
     "hearthands leftwardspushinghand rightwardspushinghand"]]

-- ================================================ rare Han characters

/-- Readings of Han characters beyond the first plane. -/
def oldHanRows : List LetterRow := [
  .ofLines 0x20456
    ["ngoi"],
  .ofLines 0x2058B
    ["you"],
  .ofLines 0x206EA
    ["tiao"],
  .ofLines 0x20BED
    ["pi"],
  .ofLines 0x20D12
    ["renh"],
  .ofLines 0x20EB4
    ["hat"],
  .ofLines 0x20FD5
    ["qiao"],
  .ofLines 0x210C1
    ["leng"],
  .ofLines 0x214C4
    ["vung"],
  .ofLines 0x215CE
    ["tum"],
  .ofLines 0x215DE
    ["xi"],
  .ofLines 0x219DB
    ["fu"],
  .ofLines 0x21ED7
    ["chon"],
  .ofLines 0x2200A
    ["xi"]]

-- =========================================================== all rows

/-- All rows, by ascending code points. -/
def letterRows : List LetterRow :=
  latinRows ++ greekRows ++ cyrillicRows ++ armenianHebrewRows ++ nearEastRows ++
    indianRows ++ southeastRows ++ georgianRows ++ cherokeeRows ++ runicRows ++
    khmerMongolianRows ++ limbuRows ++ markedRows ++ signRows ++ glagoliticRows ++
    kanaRows ++ yiRows ++ moreLatinRows ++ nagriRows ++ doubledHanRows ++ formRows ++
    ancientRows ++ youngRows ++ pictographRows ++ oldHanRows

end OrderedStore.Text
