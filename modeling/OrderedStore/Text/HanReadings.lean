/-
The readings of Han characters: the syllables of Mandarin, without tones and
as a rule without the two dots on u, each with the characters that are read so.
A character of several readings stands under one of them; one that was made
for another language, or is at home there, stands under its reading in
Japanese, Korean or Cantonese.
-/

namespace OrderedStore.Text

/-- Syllables and the characters that are read so, in the order of their code
points; a syllable of many characters has several entries. -/
def hanSyllables : List (String × String) := [
  ("a", "吖啊嗄錒锕阿"),
  ("ai", "㕌㗒㘷㝶㢊㤅䅬䔽伌佁僾叆呆哀哎唉啀嗳嘊噯埃塧壒娾嫒嬡嵦愛懓懝挨捱敱敳昹暧曖欸毐濭"),
  ("ai", "爱瑷璦皑皚皧瞹矮砨硋碍礙艾蔼薆藹譪诶賹躷銰鎄鑀锿隘霭靄靉馤騃鴱"),
  ("akutsu", "圷"),
  ("ama", "塰"),
  ("an", "㛺㜝㟁㫨㱘䀂䅁䮗侒俺儑匎唵啽垵埯堓媕安岸峎峖庵按揞晻暗案桉氨洝犴玵痷盦盫罯腌腤荌"),
  ("an", "菴萻葊蓭誝諳谙銨錌铵闇隌雸鞌鞍馣鮟鵪鶕鹌黬黯"),
  ("ang", "㭿䒢卬岇昂昻枊盎軮醠雵骯"),
  ("ao", "㑃㕭㘬㘭㜜㜩㟼㠂㠗㤇㥿㩠傲凹厫嗷嗸坳垇奡奥奧媪媼嫯岙嶅嶴廒慠懊扷抝拗摮擙敖柪梎滶"),
  ("ao", "澳熬爊狕獒獓璈磝翱翶翺聱芺蔜螯袄襖詏謷謸軪遨鏊鏖镺隞驁骜鰲鳌鷔鼇鿫"),
  ("appare", "遖"),
  ("aragane", "砿"),
  ("asari", "鯏"),
  ("ba", "㔜㞎㭭䎬䰾仈八叐叭吧哵坝坺垻墢壩妭岜巴弝扒把抜拔捌朳欛灞炦爸犮猈玐疤秡笆粑罢罷羓"),
  ("ba", "胈芭茇菝覇詙豝跋軷釟鈀鈸钯钹霸靶颰馛魃鲃鼥"),
  ("bai", "㓦㔥㗑㠔佰兡呗唄庍拜拝捭掰摆擺敗白百矲稗粨粺絔蛽襬贁败"),
  ("ban", "㚘㩯㪵䈲伴办半坂姅岅怑扮扳拌搬攽斑斒昄朌板湴版班瓣瘢癍秚粄絆绊舨般虨蝂螁螌褩辦辬"),
  ("ban", "鈑鉡钣闆阪靽頒颁"),
  ("bang", "㔙㙃㨍㭋㮄傍垹塝帮幇幚幫捠梆棒榜浜牓磅稖綁縍绑膀艕蚌蜯謗谤邦邫鎊镑鞤"),
  ("bao", "㙅㙸㫧㿺䈏䭋䴐佨保儤刨勹勽包堡堢報嫑孢宝宲寚寳寶忁怉报抱暴曓煲爆犦珤瓟窇笣緥胞苞"),
  ("bao", "菢葆蕔藵虣袌褒褓褴襃豹賲趵鉋鑤铇闁雹靌飽饱駂骲鮑鲍鳵鴇鸔鸨"),
  ("bei", "㔨㗗㛝㣁㤳㫲㰆㸢㻗伓俻倍偝偹備僃北卑备孛岥庳悖悲惫愂憊揹昁杯桮梖椑焙牬犕狈狽珼琲"),
  ("bei", "痺盃碑碚禆禙糒紴綼背萆蓓藣被褙貝贝軰輩辈邶郥鄁鉳鋇錃鐾钡鞴韛鵯鹎"),
  ("ben", "㡷㤓㨧㮥㮺倴坌夲奔奙捹撪本桳楍泍渀犇畚笨苯輽逩錛锛"),
  ("beng", "㑟䭰伻嘣埲塴崩嵭揼搒槰泵玤琫甭祊綳繃绷菶蠯誁跰蹦迸逬鏰镚閍鞛"),
  ("bi", "㓖㘠㘩㙄㠲㡀㡙㢰㢶㢸㧙㪏㪤㮿㯇㵥㻫䕗䠋佊佖俾偪匕吡咇哔啚嗶坒堛壁夶奰妣妼婢嬖屄币"),
  ("bi", "幣庇廦弊弻弼彃彼必怭愊愎敝斃朼枈柀柲梐楅檘比毕毖毙毴沘湢滗滭潷煏熚狴獘獙珌璧畀畢"),
  ("bi", "疕疪痹皀皕睤睥碧秕稫笔筆筚箄箅箆篦篳粃粊縪罼聛腷臂芘苾荜荸萞蓖蓽蔽薜蚍蜌螕袐裨襞"),
  ("bi", "襣觱詖诐豍貏貱賁贔贲赑跸蹕躃躄逼避邲鄙鄨鄪鉍鎞鏎鐴铋閇閉閟闭陛鞸韠颷飶饆馝駜驆骳"),
  ("bi", "髀魓魮鮅鰏鲾鵖鷝鷩鼊鼻"),
  ("bian", "㝸㣐㦚㭓便匥匾卞变変弁徧忭惼扁抃揙昪汳汴炞煸牑猵玣甂砭碥稨窆笾箯籩糄編緶缏编艑苄"),
  ("bian", "藊蝙褊覍變貶贬辡辧辨辩辫辮辯边辺遍邉邊釆鍽閞鞭鯾鯿鳊鴘"),
  ("biao", "㟽㠒㧼㯱㯹䮽俵儦墂婊幖彪标標檦滮瀌熛爂猋瘭磦穮脿臕表裱褾覅諘謤贆錶鏢鑣镖镳颩颮飆"),
  ("biao", "飇飈飊飍飑飙飚驫骉髟鰾鳔麃麅"),
  ("bie", "㔡㢼㿜䇷䏟別别彆徶憋莂虌蛂蟞襒蹩鱉鳖鼈龞"),
  ("bin", "㻞傧儐宾彬摈擯斌椕槟檳殡殯氞汃滨濒濱瀕瑸璸矉穦繽缤膑臏蠙豩豳賓賔邠鑌镔霦顮馪驞髌"),
  ("bin", "髕髩鬂鬓鬢"),
  ("bing", "㓈㨀丙並仌併倂偋傡兵冫冰寎并幷怲抦掤摒昞昺柄栟栤梹棅氷炳病眪禀秉稟窉竝絣苪蛃邴鈵"),
  ("bing", "鉼陃靐鞞餅餠饼鮩"),
  ("bo", "㗘㝿㟑㩧㩭㪍㬍㬧㱟㶿㹀㼎䙏䭯亳伯侼僰剝剥勃博哱啵嚗壆孹嶏嶓帛愽懪拨挀挬搏撥播擘敀"),
  ("bo", "柏柭栢桲檗欂泊波泺浡渤溊煿牔犻猼玻瓝疈癶癷盋砵碆礡礴箔箥簙簸簿糪繴缽胉脖膊舶艊苩"),
  ("bo", "菠萡葧蔔薄蘗蚾袚袯襏襮誖謈譒豰跛踄踣蹳郣鉑鉢鋍鎛鑮钵铂镈餑餺饽馎馞駁駊駮驋驳髆髉"),
  ("bo", "鮁鮊鱍鲅鲌鵓鹁"),
  ("boku", "濹"),
  ("bora", "鮱"),
  ("bou", "媬鿻"),
  ("bu", "㕊㘵㙛㚴㨐㳍不佈卜卟吥咘哺埔埗埠峬布庯怖悑惚捕捗晡步歨歩篰荹蔀补補逋部郶鈽錻钚钸"),
  ("bu", "餔餢鮬鳪鵏"),
  ("ca", "嚓囃擦橴礤"),
  ("cai", "㒲㥒倸埰婇寀彩才採材棌毝溨犲猜睬睵綵縩纔菜蔡裁財财跴踩采"),
  ("cal", "乲"),
  ("can", "㛑㜗㣓㥇㦧㨻㱚䅟䗝傪儏参參叄叅喰嬠嬱惨惭慘慙慚憯朁残殘湌澯灿燦爘璨粲蓡薒蝅蠶蠺謲"),
  ("can", "飡餐驂骖黪黲"),
  ("cang", "䅮仓仺伧倉傖凔嵢欌沧滄濸舱艙苍蒼藏螥賶鑶鶬鸧"),
  ("cao", "㜖㯥嘈嶆愺懆撡操曹曺槽漕糙肏艚艸艹草蓸螬褿襙鄵鏪騲"),
  ("cay", "夈"),
  ("ce", "㥽㨲㩍侧側冊册厕厠嫧廁恻惻憡拺敇测測畟矠笧策筞筴箣粣茦萗蓛遪頙鿈"),
  ("cem", "岾"),
  ("cen", "㞥埁岑嵾梣梫橬涔猠畠笒"),
  ("ceng", "㣒㬝䉕层層嶒曽曾碀竲蹭鄫"),
  ("cha", "㛼㢉㢒㣾㤞㪯㫅㮑䟕侘偛刹剎叉嗏垞奼姹嫅察岔嵖扠挿插揷搽杈查査槎檫汊疀痄碴秅紁肞臿"),
  ("cha", "艖茶衩訍詧詫诧蹅銟鍤鑔锸镲靫餷馇"),
  ("chai", "㑪侪儕喍囆差拆柴瘥祡芆茝虿蠆袃豺釵钗"),
  ("chan", "㙴㙻㚲㢆㢟㤐㦃㬄㯆㰫丳产僝儃儳冁刬剗剷劖嚵囅婵嬋孱嵼巉幝幨廛忏惉懴懺搀摌攙旵梴棎"),
  ("chan", "欃毚浐湹滻潹潺澶瀍瀺灛煘燀獑產産硟磛禪簅緾繟繵纏纒缠羼艬蒇蕆蝉蟬蟾袩裧襜誗諂譂讇"),
  ("chan", "讒谄谗躔辿鄽酁鋋鋓鏟鑱铲镵閳闡阐韂饞馋驏骣"),
  ("chang", "㙊㦂㫤䮖仧伥倀倡偿僘償兏厰唱嘗嚐场場塲娼嫦尝常廠徜怅悵敞昌昶晿暢椙氅淐焻猖琩瑺瓺"),
  ("chang", "甞畅畼罉肠腸膓苌菖萇裮裳誯鋹鋿錩鏛锠長镸长閶阊韔鬯鯧鱨鲳鲿鼚"),
  ("chao", "䫿仦仯吵嘲巐巢巣弨怊抄晁樔欩潮炒煼眧窲罺耖觘訬謿超轈鄛鈔钞麨鼂鼌"),
  ("che", "㒤㔭㤴㥉㨋㬚㱌㿭䜠䞣伡俥偖勶唓坼屮彻徹扯掣撤撦澈烲爡瞮砗硨硩聅莗蛼褄車轍车辙迠"),
  ("chen", "㕴㥲㧱㫳儬儭嚫塵墋夦宸尘屒忱愖敐晨曟棽榇樄櫬沈沉煁琛疢瞋硶碜磣祳臣茞莀莐蔯薼藽螴"),
  ("chen", "衬襯訦諃諶謓讖谌谶賝贂趁趂趻踸軙辰迧郴鈂鍖陈陳霃鷐麎齓齔龀"),
  ("cheng", "㐼㓌㛵㞼䇸丞乗乘侱偁呈噌城埕埥堘塍塖塣娍宬峸庱徎悜惩憆憕懲成承挰掁揨撐撑晟枨棖棦"),
  ("cheng", "椉橕橙檉泟洆浈浾湞澂澄瀓爯牚珵珹琤盯睈瞠秤称程稱穪窚竀筬絾緽脭荿虰蛏蟶裎誠诚赪赬"),
  ("cheng", "逞郕酲鋮鏿鐣铖阷靗頳饓騁騬骋"),
  ("chi", "㒆㓼㓾㔑㘜㙜㞴㞿㡿㢁㢋㢮㥡㮛㱀㶴䊼䠠乿伬侈侙倁傺勅匙叱叺吃呎哆哧啻喫嗤噄坻垑墀姼"),
  ("chi", "媸尺岻弛彨彲彳彽徥徲恀恜恥慗憏懘抶拸持搋摛敕斥杘栻欫欼歭歯池汦泜淔灻炽烾熾瓻痓痴"),
  ("chi", "痸瘛癡眙眵瞝硳离竾笞筂箈箎篪粎絺翄翅翤耛耻茌茬荎蚇蚩蚳螭袳裭褫觢訵誃誺謘貾赤赿趍"),
  ("chi", "趩跮踅踟迟遅遟遫遲郗鉓鉹銐飭饎饬馳驰骴魑鶒鷘麶黐齒齝齿"),
  ("chidori", "鵆"),
  ("chihaya", "襅"),
  ("chiisai", "琑"),
  ("chong", "㓽㤝㧤㮔㳘䆹充冲嘃埫宠寵崇崈徸忡憃憧揰摏沖浺漴珫痋种翀舂茧茺虫蝩蟲衝褈蹖銃铳隀"),
  ("chou", "㐜㤽㦞㨨㮲丑丒仇侴俦偢儔吜嚋婤嬦帱幬怞惆愁懤抽搊杻杽栦椆殠焘燽燾犨犫畴疇瘳皗瞅矁"),
  ("chou", "稠筹篘簉籌紬絒綢绸臭臰菗薵裯詶讎讐踌躊酧酬醜醻雔雠霌霔魗"),
  ("chu", "㔘㕏㕑㗙㙇㛀㡡㤕䝙䢺亍俶傗储儊儲処出刍初厨处岀幮廚怵憷拀搐敊斣斶曯杵椘楚楮榋橱橻"),
  ("chu", "檚櫉櫥欪歜泏滀滁濋犓珿琡璴畜矗础礎竌竐篨耝耡臅芻荲蒢蒭蕏藸處蜍蟵褚觸豖貙趎踀蹰躇"),
  ("chu", "躕遚鄐鉏鋤锄閦除雏雛鶵黜齣齭齼"),
  ("chuai", "㪓㪜揣膗踹"),
  ("chuan", "㯌㱛串伝传傳僢喘圌堾巛川暷椽歂氚汌瑏穿腨舛舩船諯賗輲遄釧钏"),
  ("chuang", "㡖刅创刱剏剙創噇幢床怆愴戧摐摤橦漺牀牎牕獊疒疮瘡窓窗窻闖闯"),
  ("chui", "㝽㥨倕吹垂埀捶搥棰槌湷炊箠篅腄菙錘鎚锤陲顀龡"),
  ("chun", "㖺㝄㝇䲠偆唇媋惷憌旾春暙椿櫄浱淳湻滣瑃睶箺純纯脣膥莼萅萶蒓蓴蠢踳醇醕陙鯙鶉鶞鹑"),
  ("chuo", "㪬㲋䓎啜嚽娖婥惙戳擉歠涰犳畷磭綽繛绰腏諁趠輟辍辵辶逴酫醊鎈鑡齪齹龊"),
  ("ci", "㓨㘂㘹㞖㢀㤵㩞䛐䨏佌佽偨凪刺刾垐嬨庛慈朿柌次此泚濨玼珁瓷甆疵皉磁礠祠糍紪絘茨莿薋"),
  ("ci", "蚝蛓螆蠀詞词赼趀趑跐辝辞辤辭雌飺餈髊"),
  ("cis", "嗭"),
  ("coeng", "㘟"),
  ("cong", "㗰㞱䳷丛从匆叢囪囱婃孮従徖從忩怱悤悰慒憁暰枞棇樅樬樷欉淙漎漗潀灇焧燪爜琮瑽璁瞛篵"),
  ("cong", "緫繱聡聦聪聰苁茐葱蓯蔥藂蟌誴謥賨賩錝鍐鍯鏓鏦騘驄骢"),
  ("cou", "傶凑楱湊腠輳辏"),
  ("cu", "㗤㰗䥄促噈塶徂憱梀槭殂殧猝瘄瘯簇粗縬脨蔟觕豠趗踧蹙蹴醋麁麄麤鼀"),
  ("cuan", "㠝劗巑撺攛櫕殩汆熶爨窜竄篡簒蹿躥鋑鑹镩"),
  ("cui", "㜠㝮㥞㯔㯜㱖伜倅催凗啐啛嗺墔崔忰悴慛摧榱槯毳淬漼焠獕琗璀疩瘁皠磪竁竴粋粹紣綷翆翠"),
  ("cui", "脃脆脺膬膵臎萃趡鏙顇"),
  ("cun", "刌吋存寸忖拵村澊皴籿袸邨"),
  ("cuo", "㔐㟇㭫剉剒厝嵯嵳挫措搓撮歵瑳痤睉矬硰磋縒脞莝莡蒫蓌蔖虘蹉逪遳醝銼錯锉错鹺鹾齚齰"),
  ("cwul", "乼"),
  ("da", "㙮㜓㟷㩉匒呾哒噠垯墶大妲怛打搭撘溚炟畗畣瘩眔笪答繨耷荅荙薘蟽褟褡詚达迖逹達鐽靼鞑"),
  ("da", "韃"),
  ("dai", "㐲㞭㯂㻖䈆代傣叇呔埭岱帒带帯帶廗待怠懛戴柋歹歺殆汏瀻獃玳瑇甙簤紿緿绐艜袋襶貸贷跢"),
  ("dai", "蹛軚軩迨逮霴靆鮘黛黱"),
  ("dan", "㐤㔊㕪㗖㡺㴷䒟丹亶伔但僤儋刐勯匰单単啖啗啿單噉噡嚪妉媅帎弹弾彈惮憚憺担掸撢撣擔旦"),
  ("dan", "暺柦殚殫氮沊泹淡潬澸澹狚玬瓭甔疍疸瘅癉癚眈砃窞箪簞紞耼耽聃聸胆腅膽舕萏蓞蛋蜑衴襌"),
  ("dan", "觛誕诞躭郸鄲酖鉭钽霮頕饏馾駳髧鴠黕黵"),
  ("dang", "儅党凼噹圵垱壋婸宕嵣当愓挡擋攩档檔欓氹潒澢灙珰璗璫瓽當盪瞊砀碭礑筜簜簹艡荡菪蕩蘯"),
  ("dang", "蟷裆襠譡讜谠趤逿鐺铛闣雼黨"),
  ("dao", "㠀㨶䌦倒刀刂到噵壔导導岛島嶋嶌嶹幍忉悼捣捯搗擣朷檤氘瓙盗盜祷禂禱稲稻纛翿舠艔菿衜"),
  ("dao", "衟蹈軇道釖隝隯魛鱽"),
  ("de", "㝵㤫㥁㯖嘚得徳德恴惪淂的脦鍀锝"),
  ("dekaguramu", "瓧"),
  ("den", "㩐"),
  ("deng", "㔁僜凳噔墱嬁嶝戥朩櫈灯燈璒登瞪磴竳等簦覴豋蹬邓鄧鐙镫隥霯"),
  ("deshiguramu", "瓰"),
  ("di", "㓳㢩㣙㪆㫝㭽㰅䃅䊮䗖䨀䨤仢仾低偙僀呧哋唙啇啲嘀嚁地坔坘埊埞堤墆墑墬奃娣嫡嶳帝底廸"),
  ("di", "弟弤怟慸抵拞掋摕敌敵旳杕枤柢梊梑棣楴樀氐涤渧滌滴潪焍牴狄玓甋眡睇砥碲磾祶禘笛第籴"),
  ("di", "糴締缔羝翟聜肑腣苖茋荻菂菧蒂蔋蔐蔕藡虳蝃螮袛覿觌觝詆諦诋谛豴趆踶蹢軑軧轪迪递逓遞"),
  ("di", "遰邸釱鉪鍉鏑镝阺靮鞮頔馰骶鸐"),
  ("dia", "嗲"),
  ("dian", "㓠㝪㞟䍄佃傎典厧嚸坫垫墊壂奌奠婝婰嵮巅巓巔店惦扂掂攧敁敟槇槙橂殿淀滇澱点玷琔琠电"),
  ("dian", "甸痁痶瘨癜癫癲碘磹簟蕇蜔踮蹎鈿钿阽電靛顚顛颠點齻"),
  ("diao", "㒛㚋㢯㪕伄凋刁叼吊奝屌弔彫扚掉殦汈琱瘹瞗碉窎窵竨莜蓧藋虭蛁訋調调貂釕釣銱鋽鑃钌钓"),
  ("diao", "铞雕魡鮉鯛鲷鳭鵰鼦"),
  ("die", "㑙㥈㦅㦶㩸㩹㫼㬪叠喋垤堞峌嵽恎惵戜挕昳曡氎爹牃牒瓞畳疉疊眣眰碟絰绖耊耋聑胅臷艓苵"),
  ("die", "蜨蝶褋褺詄諜谍趃跌跕蹀迭镻鰈鲽"),
  ("ding", "㝎㣔㫀㴿丁仃叮啶奵娗婈定嵿帄庰忊椗檙濎玎疔矴碇碠磸腚萣薡蝊訂订酊釘錠鐤钉锭靪頂顁"),
  ("ding", "顶飣饤鼎鼑"),
  ("diou", "銩"),
  ("diu", "丟丢乣铥"),
  ("dojou", "鯲"),
  ("dong", "㑈㓊㖦㚵㢥㨂东倲働冬冻凍动動咚垌埬墥娻嬞岽崠崬徚懂戙挏昸東栋棟氡氭洞涷眮笗箽胨胴"),
  ("dong", "腖苳菄董蝀霘駧鯟鶇鸫鼕"),
  ("dou", "㛒㞳㢄㨮㪷䕆䬦兜兠吺唗唞抖敨斗枓枡梪橷毭浢痘窦竇篼脰荳蔸蚪豆逗郖鋀閗闘阧陡餖饾鬥"),
  ("dou", "鬦鬪鬬鬭"),
  ("du", "㓃㱩儥凟匵厾喥嘟堵妒妬嬻帾度暏杜椟櫝殬殰毒涜渎渡瀆牍牘犊犢独獨琽瓄皾督睹碡秺笃篤"),
  ("du", "簬簵肚荰蝳螙蠧蠹裻覩読讀讟读豄賭贕赌都醏錖鍍鑟镀闍阇靯韇韥騳髑黩黷"),
  ("duan", "㟨㫁偳剬塅媏断斷椴段毈煅瑖短碫端簖籪緞缎腶葮褍躖鍛鍴锻"),
  ("dui", "㙂㟋㠚㨃㬣䇏兊兌兑垖堆塠对対對嵟怼憝憞懟濧瀩痽碓磓祋綐薱襨譈轛鐓鐜镦队陮隊頧"),
  ("dun", "䔻伅吨噸囤墩墪墫崸庉弴惇扽撉撴敦沌潡燉犜盹盾砘碷礅蜳趸踲蹲蹾躉逇遁遯鈍钝頓顿驐鶨"),
  ("dung", "鿴"),
  ("duo", "㔍㖼㙍㙐㛆㛊㣞㥩㻧䤪亸凙刴剁剟剫咄哚嚉嚲垛垜埵堕墮墯多夛夺奪奲尮崜嶞悳惰憜挅挆掇"),
  ("duo", "敓敚敠敪朵朶柁柮桗椯毲炧炨痑痥綞缍舵莌裰襗趓跥跺踱躱躲鈬鍺鐸铎锗陊陏飿饳鬌鮵"),
  ("e", "㓵㔩㕎㖾㗁㟧㠋㣂㦍㧖㩵㮙䄉䑥䝈俄偔僫卾厄吪呃呝咢咹哦噁噩圔垩堊堨堮妸妿娥娿婀婐屙"),
  ("e", "岋峉峨峩崿嶭恶悪惡愕戹扼搤搹擜枙櫮涐湂珴琧痾皒睋砐硆硪磀胺腭苊莪萼蕚蚅蛾蝁覨訛詻"),
  ("e", "誐誒諤譌讍讹谔豟貖軛軶轭迗遌遏鄂鈋鈳鍔鑩钶锷閼阨阸隲頞頟額顎颚额餓餩饿騀魤魥鰐鱷"),
  ("e", "鳄鵝鵞鶚鹅鹗齶"),
  ("ebi", "蛯螧"),
  ("eburi", "杁"),
  ("ei", "珱"),
  ("el", "乻"),
  ("em", "欕"),
  ("en", "奀恩摁蒽"),
  ("ena", "褜"),
  ("er", "㒃㖇㚷㛅㜨㢽㧫䋩二佴侕儿児兒刵咡唲尒尓尔峏弍弐栭栮樲檽毦洏洱爾珥眲而耏耳聏胹荋薾"),
  ("er", "衈袻誀貮貳贰趰輀轜迩邇鉺铒陑隭餌饵駬髵鮞鲕鴯鸸"),
  ("eri", "魞"),
  ("es", "旕"),
  ("eso", "鱛"),
  ("fa", "㕹㘺㛲乏伐佱傠发垡姂彂栰橃沷法灋珐琺疺発發瞂砝筏罚罰罸茷蕟藅鍅閥阀髪髮"),
  ("fan", "㕨㛯㠶㤆㴀䀀䡊䪛僠凡凢凣勫反噃墦奿嬎嬏帆幡忛憣旙旛杋柉梵棥樊橎氾汎泛滼瀪瀿烦煩燔"),
  ("fan", "犭犯璠瓪畈番盕矾礬笲笵範籓籵緐繁繙羳翻膰舤舧范蕃薠藩蘩蠜襎訉販贩蹯軓軡軬轓返鄤釩"),
  ("fan", "鐇鐢钒颿飜飯飰饭魬鱕鷭"),
  ("fang", "㑂㕫㤃㧍㯐仿倣匚坊埅堏妨房放方旊昉昘枋汸淓牥瓬眆紡纺肪舫芳蚄訪访趽邡鈁钫防髣魴鰟"),
  ("fang", "鲂鳑鴋鶭"),
  ("fei", "㔗㥱㩌㫵㹃䈈䤵䰁俷剕匪厞吠奜妃婓屝废廃廢悱扉斐昲曊朏杮棐榧櫠沸淝渄濷狒猆疿痱癈砩"),
  ("fei", "篚緋绯翡肥肺胇腓芾菲萉蕜蜚蜰蟦裶誹诽費费鐨镄霏靅非靟飛飝飞餥馡騑騛鯡鲱鼣"),
  ("fen", "㤋㥹㬟份偾僨兝分吩哛坆坋坟墳奋奮妢岎帉幩弅忿愤憤昐朆枌梤棻棼橨氛汾濆瀵炃焚燌燓獖"),
  ("fen", "玢砏秎粉粪糞紛纷羒羵翂肦膹芬蒶蕡蚠蚡衯訜豮豶轒酚鈖鐼隫雰餴饙馚馩魵鱝鲼鳻黂黺鼖鼢"),
  ("feng", "㐽㒥㛔㜂㠦㡝㦀㵯䒠䟪丰仹俸偑僼冯凤凨凬凮唪堸堼夆奉妦寷封峯峰崶捀摓枫桻楓檒沣沨浲"),
  ("feng", "渢湗溄漨灃烽焨煈熢犎猦琒甮疯瘋盽砜碸篈綘縫缝艂莑葑蘴蜂蠭覂諷讽豐賵赗逢鄷酆鋒鎽鏠"),
  ("feng", "锋霻靊風飌风馮鳯鳳鴌麷"),
  ("fo", "仏佛坲"),
  ("fou", "剻否哹椱殕竎紑缶缹缻芣裦雬鴀"),
  ("fu", "㓡㕮㙏㚆㚕㜑㟊㠅㤔㤱㩤㪄㫙㬼㭪㳇㷆䋨䘀䭻乀乶付伏伕俌俘俛俯偩傅冨冹凫刜副匐呋呒咈"),
  ("fu", "咐嘸嚩圑坿垘复夫妇妋姇娐婏婦媍嬔孚孵富尃岪峊巿帗幅幞府弗弣彿復怤怫懯払扶抚拂拊捬"),
  ("fu", "撫敷斧旉暊服枎枹柎柫栿桴棴榑氟泭洑浮涪滏澓炥烰焤父玞玸琈甫甶畉畐癁盙砆祓祔福禣秿"),
  ("fu", "稃稪符笰筟箙簠粰糐紨紱紼絥綍綒緮縛绂绋缚罘罦翇肤胕脯腐腑腹膚艀艴芙苻茀茯荴莆莩菔"),
  ("fu", "萯葍蕧虙蚥蚨蚹蛗蜅蜉蝜蝠蝮衭袝袱複褔覄覆訃詂諨讣豧負賦賻负赋赙赴趺跗踾輔輹輻辅辐"),
  ("fu", "邞郙郛鄜酜釜釡鈇鉘鉜鍑鍢阜阝附陚韍韨頫颫馥駙驸髴鬴鮄鮒鯆鰒鲋鳆鳧鳬鳺鴔鵩鶝麩麬麱"),
  ("fu", "麸黻黼"),
  ("fui", "䝇"),
  ("fumoto", "梺"),
  ("ga", "嘎嘠尕尜尬玍錷"),
  ("gai", "㕢㧉㮣丐乢侅匃匄垓姟峐忋戤摡改晐概槩槪溉漑瓂畡盖祴絠胲荄葢蓋該该豥賅賌赅郂鈣钙陔"),
  ("gai", "隑"),
  ("gake", "垳"),
  ("gan", "㓧㤌㶥㽏乹乾亁仠倝凎凲坩尲尴尶尷嵅干幹忓感擀攼敢旰杆柑桿榦橄檊汵泔涻淦澉灨玕甘疳"),
  ("gan", "皯盰矸秆稈竿筸簳粓紺绀肝芉苷虷蜬衦詌贑贛赣赶趕迀骭鱤鳡鳱"),
  ("gang", "㟠㟵㧏㭎㽘冈冮刚剛堈堽岗岡崗戅戆戇掆杠棡槓港焵焹牨犅碙笐筻綱纲缸罁罓罡肛舡鋼鎠钢"),
  ("gang", "鿍"),
  ("gao", "㚏㚖㤒㵆叝吿告夰搞暠杲槁槔槹橰檺櫜滜煰皋皐睾祮祰禞稾稿筶篙糕縞缟羔羙膏臯菒藁藳誥"),
  ("gao", "诰郜鋯锆韟餻高髙鯌鷎鼛"),
  ("ge", "㖵㗆㝓㠷㤎㦴㭘䈓䘁个佮個割匌各呄咯哥哿嗝嗰噶圪塥愅戈戓戨挌搁搿擖擱敋格槅櫊歌渮滒"),
  ("ge", "牁牫牱獦疙笴箇肐胳膈臵舸茖葛虼蛒裓觡諽謌輵轕郃鉻鎘鎶铬镉閣閤阁阖隔革鞷韐韚骼鮯鰪"),
  ("ge", "鴚鴿鸽麧齃鿔"),
  ("gei", "給给"),
  ("gem", "咁"),
  ("gen", "㫔㮓亘亙刯剆根艮茛跟"),
  ("geng", "㪅㹴㾘䌄䱍䱭哽埂堩峺庚挭揯搄更梗椩浭焿畊秔稉粳絙絚綆緪縆绠羮羹耕耿莄菮賡赓郠骾鯁"),
  ("geng", "鲠鶊鹒"),
  ("gomi", "埖"),
  ("gon", "龫"),
  ("gong", "㓋㓚㓻㔶㕬㤨㧬㫒㭟㯯㼦䢼䱋䳍供公共功匑厷塨宫宮工巩幊廾弓恭愩慐拱拲攻杛栱汞玜珙疘"),
  ("gong", "碽穬竔篢糼羾肱蚣蛬觥觵貢贡躬躳釭銾鋛鞏髸魟龏龔龚"),
  ("gori", "鮴"),
  ("gou", "㗕㝅㝤㡚㨌傋冓勾坸垢够夠姤媾岣彀搆撀构枸構沟溝煹狗玽笱篝緱缑耇耈耉耩芶苟茩蚼褠覯"),
  ("gou", "觏訽詬诟豿購购遘鈎鉤钩雊鞲韝骺"),
  ("gu", "㒴㚉㧽㯏䀦䐻䶜估傦僱凅古呱咕唂唃嘏固堌夃姑嫴孤尳崓崮怘愲扢故杚柧梏棝榖榾橭毂沽泒"),
  ("gu", "淈濲瀔焸牯牿狜痼皷皼盬瞽祻稒穀笟箍箛篐糓縎罛罟羖股脵臌苽菇菰蓇薣蛄蛊蛌蠱觚詁诂谷"),
  ("gu", "軱轂辜酤鈲鈷錮钴锢雇頋顧顾餶馉骨鮕鯝鲴鴣鶮鶻鸪鹘鼓鼔"),
  ("gua", "㒷㧓䈑䒷冎刮剐剮劀卦叧啩坬寡懖括挂掛栝桰歄煱瓜瘑筈絓緺罣罫聒胍脶腡葀蜗蝸褂詿诖趏"),
  ("gua", "踻适銽頢颳騧髺鴰鸹"),
  ("guai", "㧔乖叏夬怪恠拐旝枴柺癐箉"),
  ("guan", "㮡㴦䙛丱倌关冠官悹悺惯慣掼摜棺樌毌泴涫潅灌爟琯瓘痯瘝癏盥矔礶祼窤筦管罆罐脘舘蒄覌"),
  ("guan", "観觀观謴貫贯輨遦錧鏆鑵関闗關雚館馆鱞鱹鳤鸛鹳"),
  ("guang", "㤮㫛侊僙光咣垙姯広廣桄櫎洸灮炗炚炛烡犷獷珖胱臦臩茪輄逛銧黆"),
  ("gui", "㔳㧪㨳㪈䅅䈐䍯䐴䤥亀佹傀刽刿劊劌匦匭匮匱厬圭垝妫姽媯嫢嬀宄嶡巜帰庋庪归恑摫攰攱昋"),
  ("gui", "晷暩桂椝槻槼櫃歸氿溈溎潙炔珪瑰璝瓌癸皈祪窐筀簋胿膭蓕蛫蟡袿襘規规觤詭诡貴贵跪軌轨"),
  ("gui", "邽郌閨闺陒鞼鬶鬹鬼鮭鱥鲑龜龟"),
  ("gun", "㙥㨰㯻丨掍棍滚滾璭睴磙緄绲蓘蔉衮袞袬裩輥辊鮌鯀鲧"),
  ("guo", "㕵㗻䆐啯嘓囯囶囻国圀國埚堝墎崞帼幗惈慖掴摑果椁槨淉漍濄猓簂粿綶聝腂腘膕菓虢蜾蝈蟈"),
  ("guo", "裹輠过過郭鈛鍋鐹锅餜馃馘"),
  ("ha", "丷哈垪蛤"),
  ("haai", "嚡"),
  ("haba", "掵"),
  ("habaki", "鈨鎺"),
  ("hagi", "蘒"),
  ("hai", "㜾㤥㧡㨟亥咍嗐嗨孩害氦海烸蓜酼醢頦颏餀饚駭骇骸"),
  ("hal", "乤"),
  ("hama", "濵"),
  ("han", "㑵㒈㖤㘎㘕㘚㟏㟔㢨㤷㨔㪋㮀㸁䈄丆佄傼兯函凾厂厈含哻唅喊圅垾娢娨嫨寒屽崡悍憨憾扞捍"),
  ("han", "撼攌旱晗晘晥暵梒汗浛浫涆涵淊漢澏瀚炶焊焓熯爳猅琀甝皔睅筨罕翰肣莟菡蔊蚶蛿蜭螒譀谽"),
  ("han", "豃豻貋邗邯酣釬銲鋎鋡閈闬雗韓韩頇頷顄顸颌颔馠馯駻鬫魽鶾鼾"),
  ("hang", "㤚㰠䘕吭夯斻杭桁汻沆肮航苀蚢貥迒酐頏颃魧"),
  ("hao", "㘪㙱㚪㝀㞻㠙㩝㬔㬶侾傐儫勂号哠嗥嘷噑嚆嚎壕好峼恏悎昊昦晧暤暭曍椃毜毫浩淏滈澔濠瀥"),
  ("hao", "灏灝獆獋獔皓皜皞皡皥秏籇耗聕蒿薃薅號蠔諕譹豪郝鄗鎬镐顥颢鰝"),
  ("haraka", "鰚"),
  ("hashi", "槗"),
  ("hata", "簱籏"),
  ("hatahata", "鰰鱩"),
  ("haze", "枦"),
  ("hazou", "楾"),
  ("he", "㕡㗿㥺㪃㪉㬞㭱㮝㮫㵑㿥䞦何佫俰劾厒合吓呵咊和哬啝喝嗃嗬壑姀峆廅惒抲敆暍曷柇核楁毼"),
  ("he", "河涸滆澕焃煂熆熇爀狢癋皬盇盉盍盒碋礉禾秴穒篕紇纥翮翯耠荷菏萂蒚蚵蝎螛蠚袔褐覈訶訸"),
  ("he", "詥诃貈貉賀贺赫釛鉌閡闔阂靍靎靏鞨頜餲魺鲄鶡鶴鸖鹖鹤齕龁龢"),
  ("hei", "幤潶黑黒"),
  ("hekutogura", "瓸"),
  ("hen", "㯊佷哏很恨拫狠痕詪鞎"),
  ("heng", "㔰亨哼啈姮恆恒悙揘撔楻横橫涥澋珩絎绗脝蘅衡誙諻鐄鑅韹鴴鸻黉黌"),
  ("hesaki", "舮"),
  ("hi", "暃"),
  ("hie", "薭"),
  ("hitoe", "褝"),
  ("hokuso", "樮"),
  ("hon", "鿰"),
  ("hong", "㖓㗢㢬㬴䉺仜叿吰呍哄唝嗊垬妅娂宏宖峵嵤弘彋揈晎汯泓洪浤渱渹潂澒灴烘焢玒硔硡竑竤篊"),
  ("hong", "粠紅紘紭綋红纮翃翝耾舼苰荭葒葓蕻薨虹触訇訌讧谹谼谾軣輷轟轰鈜鉷鋐鍙鍧閎閧闳霟鞃顭"),
  ("hong", "鬨鴻鸿"),
  ("horo", "縨袰"),
  ("hou", "㖃㗋㤧㫗㬋㮢侯候厚后吼喉垕堠帿後洉犼猴瘊睺矦篌糇缿翭葔豞逅郈鄇銗鍭餱鮜鯸鱟鲎鲘齁"),
  ("hoy", "栃"),
  ("hu", "㕆㗅㦆㦌㧮㧾㨭㪶㫚㯛㸦䓤䭌乎乕乥互冱冴匢匫呼唬唿啒喖嘑嘝嚛囫垀壶壷壺婟媩嫭嫮寣岵"),
  ("hu", "峘帍幠弖弧忽怙戶户戸戽扈抇护搰摢擭斛昈昒曶枑楛楜槲槴欻歑沍沪泘浒湖滬滸滹瀫灳烀烼"),
  ("hu", "焀煳熩狐猢琥瑚瓠瓳祜笏箶簄糊絗綔縠胡苸萀葫蔛蔰虍虎虖虝蝴螜衚觳謼護軤轷鄠醐錿鍸隺"),
  ("hu", "雐頀頶餬鬍魱鰗鳸鵠鶘鶦鹄鹕"),
  ("hua", "㓰㕦㕲㕷㚌㟆㠏㦊㭉划劃化华哗嘩婳嫿嬅崋摦撶杹桦槬樺滑澅狯猾画畫畵磆繣舙花芲華蒊蕐"),
  ("hua", "蘳螖觟話諣譁譮话釫錵鏵铧驊骅鷨"),
  ("huai", "㜳㠢佪咶壊壞孬徊怀懐懷槐櫰淮瀤竵耲蘹蘾褢褱諙踝"),
  ("huan", "㕕㡲㣪㪱㬇㬊㹕䈠䦡䴉唍唤喚喛嚾垸奂奐嬛宦寏寰嵈幻患愌懁懽捖换換擐桓梙梡槵欢歓歡洹"),
  ("huan", "涣渙漶澴烉焕煥犿狟獾环瑍環瓛痪瘓睆糫緩繯缓缳羦肒荁萈萑藧讙豢豲貆貛輐轘还逭還酄鍰"),
  ("huan", "鐶锾镮闤阛雈驩鬟鰀鴅鵍"),
  ("huang", "㞷㠵㡃㤺㨪㬻㿠䅿䐠偟兤凰喤嚝堭塃墴媓宺崲巟幌徨怳恍惶愰慌撗晃晄曂朚榥湟滉潢炾煌熀"),
  ("huang", "熿獚瑝璜癀皇皝皩磺穔篁簧肓艎荒葟蝗蟥衁詤謊谎趪軦遑鍠鎤锽隍餭騜鰉鱑鳇鷬黃黄"),
  ("hui", "㑰㑹㜇㞧㤬㥣㧑㨤㨹㩓㩨㫎㬩㰥㷇䧥会僡儶匯卉咴喙嘒噅噕噧嚖囘回囬圚婎媈嬇寭屷幑廆廻"),
  ("hui", "廽彗彙彚徽恚恛恢恵悔悝惠慧憓懳拻挥揮撝晖晦暉暳會槥橞檓櫘殨毀毁毇汇泋洃洄湏滙潓濊"),
  ("hui", "瀈灰烠烣烩煇燬燴獩璤璯痐瞺禈秽穢篲絵繐繢繪绘缋翙翚翬翽芔茴荟蔧蕙薈藱虺蚘蛔蛕蜖蝰"),
  ("hui", "螝蟪袆褘詯詼誨諱譓譭譿讳诙诲豗賄贿輝辉迴逥鏸鐬闠阓隓隳靧韢頮顪颒餯饖鮰鰴麾"),
  ("hun", "㑮㖧㥵㨡㮯䮝俒倱圂堚婚忶惛惽慁昏昬棔棞楎殙浑涽混渾溷焝珲琿睔睧睯繉荤葷觨諢诨轋閽"),
  ("hun", "阍顐餛餫馄魂鯶鼲"),
  ("huo", "㓉㖪㗲㘞㚟㦎㦜㦯㨯㩇㯉㸌䄀䱛伙佸剨劐咟嗀嚄嚯嚿夥奯彟彠惑或捇掝攉旤曤楇檴沎活湱濩"),
  ("huo", "瀖火獲瓁癨眓矆矐矱砉硅礊祸禍秮秳穫耯臒臛艧获萿藿蠖謋讗豁貨货邩鈥鍃鑊钬锪镬閄雘霍"),
  ("huo", "霩靃韄騞鱯鳠鸌鹱"),
  ("hwa", "婲"),
  ("hyeng", "灐"),
  ("ikaruga", "鵤"),
  ("ikenie", "犠"),
  ("iong", "硧"),
  ("ip", "込"),
  ("iri", "圦"),
  ("irori", "鈩"),
  ("ishiyumi", "釻"),
  ("isuka", "鶍"),
  ("ji", "㑧㒫㔕㗊㗱㘍㙨㙫㚡㚻㛷㞃㞆㞛㞦㠍㠎㠱㡭㡮㤂㥍㥛㦘㦸㧀㨈㪠㫷㭲㮨㮷㰟㱞㴔㸄㻑䐀䞘䳭"),
  ("ji", "丌丮乩亟亼伋伎佶偮僟兾冀几击刉刏剂剞剤劑勣卙即卽及叽吉咭哜唧喞嗘嘰嚌圾坖垍基堲塈"),
  ("ji", "塉墼妀妓姞姫姬嫉季寂寄尐屐岌峜嵆嵇嵴嶯己幾庴廭彐彑彶忌忣急悸惎愱懻戟戢技挤掎揤撃"),
  ("ji", "撠擊擠擮旡既旣暨曁朞机极枅梞棘楫極槉樍樭機橶檕檝檵櫅殛毄汲泲洁洎济済湒漃漈潗激濈"),
  ("ji", "濟瀱焏犄犱狤猤玑玘璣璾畸畿疾痵瘈瘠癠皍瞡矶磯礏祭禝禨积稘稩稷稽穄穊積穖穧笄笈筓箕"),
  ("ji", "箿簊籍粫紀級継績繼级纪继绩罽羁羇羈耤耭聻肌脊膌臮芨芰茍茤莋葪蒺蓟蓻蔇蕀蕺薊蘎蘮蘻"),
  ("ji", "虀虮蛣蝍螏蟣裚褀襀襋覉覊覬觊觙觭計記誋諅譏譤计讥记賫賷赍跡跻跽踖踦蹐蹟躋躸輯轚辑"),
  ("ji", "迹郆鈒鈘銈銡鍓鏶鐖鑇鑙钑际際隮集雞雦雧霁霵霽鞊鞿韲飢饑饥驥骥髻鬾魕魝魢鮆鯚鯽鰶鰿"),
  ("ji", "鱀鱭鱾鲚鲫鳮鴶鵋鶏鶺鷄鸄鸡鹡麂麡齌齎齏齑"),
  ("jia", "㕅㚙㪴㮖㹢䕒乫仮伽佳価假傢價加叚唊嗧嘉圿埉夹夾婽嫁家岬幏徦恝戛戞扴拁斚斝架枷梜椵"),
  ("jia", "榎榢槚檟毠泇浃浹犌猳玾珈甲痂瘕硈稼笳耞胛腵舺荚莢葭蛱蛺袈袷裌豭貑賈贾跏跲迌迦郏郟"),
  ("jia", "鉀鉫鉿鋏鎵钾铗铪镓鞂鞈頬頰颊餄饸駕驾鴐鵊麚"),
  ("jian", "㓺㔋㔓㡨㣤㦰㨴㨵㭴㯺㰄㵎䌠件侟俭俴俿倹偂健僣僭儉兼冿减剑剣剪剱劍劎劒劔囏囝坚堅堿"),
  ("jian", "奸姦姧寋尖廌建弿徤惤戋戔戩戬拣挸捡揀揃搛撿擶旔暕枧柬栫梘检検椷楗榗槛樫橺檢檻櫼歼"),
  ("jian", "殲毽洊涧渐減湔湕溅漸澗濺瀐瀳瀸瀽煎熞熸牋牮犍猏玪珔瑐监監睑睷瞼硷碊碱磵礛笕笺筧简"),
  ("jian", "箋箭篯簡籛糋絸緘縑繝繭缄缣翦肩腱臶舰艦艰艱荐菅菺葌蒹蔪蕑蕳薦藆虃螹蠒裥襇襉襺見覵"),
  ("jian", "覸见諌諓諫謇謭譼譾谏谫豜豣賎賤贱趝趼践踐踺蹇釼鉴鋻鍳鍵鏩鐗鐧鑑鑒鑬鑯鑳锏键間閚间"),
  ("jian", "靬鞬鞯韀韉顅餞餰饯馢騝鬋魐鰎鰔鰜鰹鲣鳒鳽鵳鶼鹣鹸鹻鹼麉"),
  ("jiang", "㢡㯍䉃僵匞匠壃夅奖奨奬姜将將嵹弜弶摪摾桨槳橿殭江洚浆滰漿犟獎瓨畕畺疅疆礓糡糨絳繮"),
  ("jiang", "绛缰翞膙茳葁蒋蔃蔣薑螀螿袶襁講謽讲豇酱醤醬降韁顜鱂鳉"),
  ("jiao", "㠐㩰㬭㭂㰾䴔交佼侥僥僬儌剿劋勦叫呌嘂嘄嘦噍噭嚼姣娇嫶嬌嬓孂峤峧嶕嶠徺徼憍憿挍挢捁"),
  ("jiao", "搅摷撟撹攪敎教敫敽敿斠晈暞曒椒櫵浇湬滘漅漖潐澆灚烄焦煍燋燞狡珓璬皎皦皭矫矯礁穚窌"),
  ("jiao", "窖筊糹絞繳绞缴脚腳膠膲臫芁茭茮蕉虠蛟蟂蟜蟭角訆詨譑譥賋跤踋較轎轿较郊醮醶釂鉸鐎铰"),
  ("jiao", "隦餃饺驕骄鮫鱎鲛鴵鵁鷍鷦鷮鹪"),
  ("jie", "㑘㓗㔚㘶㛃㝏㞯㠹㦢㨗㨩㫸㮞㮮䀹䃈䱄丯介价借倢偈偼傑刦刧刼劫劼卩卪吤唶喈喼嗟堦堺姐"),
  ("jie", "婕媎媘媫孑屆届岊岕崨嵥巀幯庎徣悈戒截拮捷接掲掶揭搩擑擳昅杰栉栨桀桔械椄楐楬楶榤檞"),
  ("jie", "櫛櫭湝滐潔瀄煯犗犵玠琾瑎界畍疖疥癤皆睫砎碣秸稭竭節紒結繲结羯脻腉艥节芥莭菨葜蓵薢"),
  ("jie", "藉蚧蜐蝔蠘蠞蠽街衱袺褯解觧訐詰誡誱謯讦诘诫趌踕躤迼鉣鍻鎅鐑阶階頡颉飷騔魀魪鮚鲒鶛"),
  ("jin", "㝻㦗㧆㨷㬐㬜㯲㯸㰹㱈䑤仅今伒侭僅僸儘凚劤卺噤嚍埐堇墐妗嫤嬧尽嶜巹巾惍慬搢斤晉晋暜"),
  ("jin", "枃槿歏殣津浕浸溍漌濅濜烬燼珒琎琻瑧瑨瑾璡璶瘽盡矜砛祲禁筋紟紧緊縉缙肵荕荩菫菳蓳藎"),
  ("jin", "衿襟覲觐觔謹谨賮贐赆近进進金釒錦钅锦靳饉馑鹶黅齽"),
  ("jing", "㕋㘫㢣㣏㬌䜘䝼䴖丼井京亰俓倞傹儆兢净凈刭剄劲勁坕坙境妌婙婛婧宑巠弪弳径徑憬憼擏敬"),
  ("jing", "旌旍景晶暻曔桱梷汬泾浄涇淨濪瀞烃烴燛燝猄獍璟璥痉痙睛穽竞竟竧竫競竸箐精経經经聙肼"),
  ("jing", "胫脛腈茎荆荊莖菁葏葝蟼誩警踁迳逕鏡镜阱靓靖静靚靜頚頸颈驚鯨鲸鵛鶁鶄麖麠黥鼱"),
  ("jiong", "㓏㢠㤯㯋䌹䢛侰僒冂冋冏囧坰垧埛幜扃泂澃炅炯烱煚煛熲皛窘絅綗蘏蘔褧迥逈顈颎駉駫"),
  ("jiu", "㝌㠇㡱㩆㺩䆒丩久乆九僦勼匓匛匶厩咎啾奺媨就廄廏廐慦捄揂揪揫救旧朻柩柾桕樛欍汣湫灸"),
  ("jiu", "牞玖疚究糺糾紤纠臼舅舊舏萛觓赳轇酒醔镹阄韭韮鬏鬮鯦鳩鷲鸠鹫麔齨"),
  ("ju", "㖩㘌㘲㜘㞐㞫㠪㡹㥌㨿㩀㩴㪺㬬㮂䈮䳔䴗举侷俱倨倶具冣凥刟剧劇勮匊句咀啹埧埾壉姖娵婅"),
  ("ju", "婮寠局居屦屨岠岨崌巈巨弆怇怚惧愳懼抅拒拘拠挙挶据掬據擧昛柜梮椇椈椐榉榘橘檋櫸欅歫"),
  ("ju", "毩毱沮泃泦洰涺淗澽炬烥焗焣爠犋犑狊狙琚疽眗矩秬窭窶竘筥箤簴粔粷絇罝耟聚腒舉艍苣苴"),
  ("ju", "莒菊菹葅蒟蘜虡蚷蜛蝺袓裾詎諊讵貗趄趜跔跙距跼踘踙踞踽蹫躆躹輂遽邭郹鄓醵鉅鋦鋸鐻钜"),
  ("ju", "锔锯閰陱雎鞠鞫颶飓駏駒駶驧驹鮈鮔鴡鵙鵴鶋鶪鼳齟龃"),
  ("juan", "㢧㢾㪻㯞㷷䖭䣺倦剶劵勌勬卷埢姢娟巻帣慻捐捲朘桊涓淃狷獧瓹眷睊睠絹绢罥羂臇菤蠲裐鄄"),
  ("juan", "錈鎸鐫锩镌隽韏飬鬳鵑鹃"),
  ("jue", "㔃㔢㟲㤜㩱㭈㭾㰐㵐䡈亅倔傕僪决刔劂勪厥噘噱孒孓屩屫崛崫嵑嶥弡彏憠憰戄抉挗捔掘撅撧"),
  ("jue", "攫斍柽桷橛橜欔欮殌氒決潏焆焳熦爑爝爴爵獗玃玦玨珏瑴疦瘚矍矡砄絕絶绝臄芵蕝蕨蚗蟨蟩"),
  ("jue", "蠼覐覚覺觉觖觼訣譎诀谲谻貜赽趹蹶蹷躩逫鈌鐍鐝钁镢鱊鱖鳜鴂鴃鷢龣"),
  ("jun", "㑺㒞㕙㖥㚬㝦㽙䇹䐃䕑俊儁军君呁均姰寯峻懏捃攈攟晙桾殾汮浚濬焌珺畯皲皸皹睃碅竣箘箟"),
  ("jun", "莙菌葰蔨蚐蜠袀覠軍郡鈞銁銞钧雋頵餕馂駿骏鮶鲪鵘麇麏麕"),
  ("jung", "繌"),
  ("ka", "佧咔咖胩鉲髂"),
  ("kago", "筺"),
  ("kai", "㚊䁗䤤凯凱剀剴勓嘅垲塏奒开忾恺愒愷愾慨揩暟楷欬炌炏烗痎礚蒈輆鍇鎧鐦铠锎锴開闓闿颽"),
  ("kajika", "鮖"),
  ("kaka", "嬶"),
  ("kakesu", "鵥"),
  ("kaki", "硴"),
  ("kamakiri", "蟐"),
  ("kamishimo", "裃"),
  ("kan", "㘛㙳侃偘冚刊勘坎埳堪塪墈崁嵁惂戡栞欿歁歞看瞰矙砍磡竷莰衎輡轗闞阚顑龕龛"),
  ("kang", "㢜䆲䡉亢伉匟囥嫝嵻康忼慷扛抗摃槺漮炕犺砊穅粇糠躿邟鈧鏮钪閌闶鱇"),
  ("kao", "丂尻拷攷栲槀洘烤燺犒稁考薧銬铐靠髛鮳鲓鷱"),
  ("kari", "猟"),
  ("kase", "綛"),
  ("kasei", "桛"),
  ("kashi", "槝"),
  ("kasugai", "銯鎹"),
  ("kasuri", "緕"),
  ("katsura", "楿蘰"),
  ("kazari", "錺"),
  ("kazunoko", "鯑"),
  ("ke", "㕉㞹㤩㪙㪡㪼㰤㸯䌀䐦克刻剋勀勊可咳喀嗑坷垎堁壳娔客尅岢峇嶱恪愘愙揢搕敤柯棵榼樖殼"),
  ("ke", "氪渇渴溘炣犐珂疴瞌碦磕礍科稞窠簻緙缂胢苛萪薖蝌衉課课趷軻轲醘顆颗騍骒髁"),
  ("kek", "巪"),
  ("kel", "乬"),
  ("ken", "啃垦墾恳懇掯椦珢硍肎肯肻裉褃豤錹齗齦龂龈"),
  ("keng", "㧶䃘劥坈坑奟妔挳摼牼硁硜硻銵鍞鏗铿阬"),
  ("kep", "迲"),
  ("kes", "唟"),
  ("kesa", "畩"),
  ("kewashii", "嵜"),
  ("ki", "怾"),
  ("kikuitadaki", "鶎"),
  ("kinu", "紦"),
  ("ko", "侤"),
  ("koc", "廤"),
  ("kohaze", "鞐"),
  ("kong", "㚚㤟倥埪孔崆恐悾控涳硿空箜錓鞚鵼"),
  ("koraeru", "怺"),
  ("kou", "㓂㰯䁱佝冦剾劶口叩宼寇彄怐扣抠摳敂滱瞉窛筘簆纐芤蔲蔻袧釦鷇"),
  ("kouji", "糀"),
  ("ku", "㗄㠸㩿㪂俈刳哭喾嚳圐堀库庫扝挎挧枯桍焅瘔矻秙窟絝绔胐苦袴裤褲謉趶跍軲轱郀酷顝骷"),
  ("kua", "㐄㛻㡁侉咵垮夸姱恗胯舿荂誇跨銙錁锞骻"),
  ("kuai", "㔞㙕㟴㧟㱮䭝侩儈凷呙哙噲块塊墤廥快擓桧檜欳浍澮獪禬筷糩脍膾蒯郐鄶駃鬠鱠鲙"),
  ("kuan", "㯘䕀宽寛寬欵款歀窽窾臗鑧髋髖"),
  ("kuang", "㑌䒰俇儣况劻匡匩卝哐圹壙夼岲恇懬懭抂旷昿曠框況洭爌狂眖眶矌矿硄礦筐絖纊纩誆誑诓诳"),
  ("kuang", "貺贶躀軭邝邼鄺鉱鑛鵟黋"),
  ("kui", "㒑㕟㙓㙺㚍㚝㨒䖯䙆䤆刲喟喹嘳夔奎媿尯岿巋愦愧憒戣揆撌晆暌楏楑槶樻櫆湀溃潰煃犪盔睽"),
  ("kui", "瞆瞶窥窺篑簣籄聧聩聭聵腃茥葵蒉蔮蕢藈蘬蘷虁虧跬蹞躨逵鄈鍨鍷鐀鑎闚頍頯餽饋馈馗騤騩"),
  ("kui", "骙魁"),
  ("kuji", "籖"),
  ("kume", "粂"),
  ("kun", "㡓㩲㫻困坤堃堒壸壼婫尡崐崑悃惃捆昆晜梱涃潉焜熴猑琨瑻睏硱祵稇稛綑菎蜫裈裍褌貇醌錕"),
  ("kun", "锟閫閸阃騉髠髡髨鯤鲲鵾鹍齫"),
  ("kunugi", "椚椡檪"),
  ("kuo", "㗥姡廓彉彍扩拡挄擃擴漷濶蛞闊阔鞟鞹韕"),
  ("kura", "峅"),
  ("kutabireru", "萙"),
  ("kwi", "櫷"),
  ("kwu", "夻"),
  ("kyou", "鱜"),
  ("kyuu", "恷"),
  ("la", "㕇㡴亽剌啦喇嚹垃拉揦揧攋柆楋爉瓎瘌磖翋腊臈臘菈藞蝋蝲蠟辢辣邋鑞镴鞡鬎鯻"),
  ("lai", "㚓㥎㸊䄵䋱來俫倈勑唻娕婡孻崃崍庲徕徠来梾棶櫴涞淶濑瀨瀬琜癞癩睐睞筙箂籁籟莱萊藾襰"),
  ("lai", "賚賴赉赖逨郲錸铼頼顂騋鯠鵣鶆麳"),
  ("lan", "㑣㘓㛦㜮㞩㦨㨫㩜㰖䌫儖兰厱啉嚂囒囕壈壏婪嬾孄孏岚嵐幱懒懢懶拦揽擥攔攬斓斕栏榄欄欖"),
  ("lan", "欗浨滥漤澜濫瀾灆灠灡烂燗燣燷爁爛爤爦璼瓓礷篮籃籣糷繿纜缆葻蓝藍蘫蘭襕襤襴覧覽览譋"),
  ("lan", "讕谰躝醂鑭钄镧闌阑韊顲"),
  ("lang", "㓪㙟㝗㟍㢃㫰㮾㱢俍勆唥啷埌塱嫏崀廊斏朖朗朤桹榔樃欴浪烺狼琅瑯硠稂筤艆莨蒗蓈蓢蜋螂"),
  ("lang", "誏踉躴郎郞鋃锒閬阆"),
  ("lao", "㗦㞠㟉㟹㧯㨓䇭佬僗劳労勞咾哰唠嘮嫪崂嶗恅憥憦捞撈朥栳橑橯浶涝澇牢狫珯痨癆硓磱窂簩"),
  ("lao", "粩老耂耢耮荖蟧躼軂轑醪銠鐒铑铹髝"),
  ("le", "㔹㖀㦡乐仂勒叻哷忇扐捋楽樂氻泐玏砳竻簕肋艻阞韷頱餎饹鰳鳓"),
  ("lei", "㑍㒍㒦㔣㙼㵢㵽䉂䉪䢮傫儡儽厽嘞垒埒壘壨嫘擂攂樏檑櫐櫑欙泪洡涙淚漯灅瓃畾瘣癗磊磥礌"),
  ("lei", "礧礨禷类累絫縲纇纍纝缧罍羸耒蕌蕾藟蘱蘲蘽虆蠝誄讄诔轠酹銇錑鐳鑘鑸镭雷靁頛頪類颣鸓"),
  ("lei", "鼺"),
  ("leng", "㘄䉄倰冷堎塄崚愣棱楞稜薐踜"),
  ("li", "㑦㒧㒿㓯㔏㕸㗚㘑㛤㟳㠟㠣㡂㤡㤦㦒㧰㬏㮚㯤㰀㰚㴝㹈㻺䅻䔉䔧丽例俐俚俪傈儮儷兣凓刕利"),
  ("li", "剓剺劙力励勵历厉厘厤厯厲吏呖哩唎唳喱嚟嚦囄囇坜塛壢娌娳婯嫠孋孷屴岦峛峢峲巁廲悡悧"),
  ("li", "悷慄戻戾搮攊攡攦攭斄暦曆曞朸李枥栎栗栛栵梨梩梸棃棙樆櫔櫟櫪欐欚歴歷氂沥沴浬涖溧漓"),
  ("li", "漦澧濿瀝灕爄爏犁犂犛犡狸猁猍珕理琍瑮璃瓅瓈瓑瓥疠疬痢癘癧皪盠盭睝矋砅砬砺砾磿礪礫"),
  ("li", "礰礼禮禲秝穲立笠筣篥篱籬粍粒粚粝粴糎糲綟縭纅缡罹脷艃苈苙茘荔莅莉菞蒞蓠蔾藜藶蘺蚸"),
  ("li", "蛎蛠蜊蜧蝷蟍蟸蠇蠡蠣蠫裏裡褵詈謧讈豊貍赲跞躒轢轣轹逦邌邐郦酈醨醴里釐鉝鋫鋰錅鏫鑗"),
  ("li", "锂隶隷隸離雳雴靂靋騹驪骊鬁鬲鯉鯬鱧鱱鱳鱺鲡鲤鳢鳨鴗鵹鷅鷑鸝鹂麗麜黎黧"),
  ("lia", "俩倆"),
  ("lian", "㜃㜕㜻㝺㟀㡘㢘㥕㦁㪘㪝㯬㰈㰸㱨㶑䙺䥥亷僆劆匲匳嗹噒堜奁奩奱媡嫾嬚帘廉怜恋慩憐戀摙"),
  ("lian", "敛斂梿楝槤櫣歛殓殮浰涟湅溓漣潋澰澵濂濓瀲炼煉熑燫琏瑓璉磏稴簾籢籨練縺纞练羷翴联聫"),
  ("lian", "聮聯脸膦臁臉莲莶萰蓮蔹薕薟蘝蘞螊蠊裢裣褳襝覝謰譧蹥连連鄻錬鍊鎌鏈鐮链镰鬑鰊鰱鲢"),
  ("liang", "㒳㔝両两亮兩凉哴唡啢喨墚悢惊掚晾梁椋樑涼湸煷粮粱糧綡緉脼良蜽裲諒谅輌輛輬辆辌量鍄"),
  ("liang", "駺魉魎"),
  ("liao", "㙩㝋㡻㵳䄦了僚叾嘹嫽寥寮尞尥尦屪嵺嶚嶛廖廫憀憭摎撩敹料暸曢漻潦炓熮燎爎爒獠璙疗療"),
  ("liao", "瞭窷簝繚缭聊膋膫蓼藔蟉蟟豂賿蹘蹽辽遼鄝鐐镣镽顟飂飉髎鷚鷯鹨鹩"),
  ("lie", "㤠㧜㬯㭞㭩㯿䴕儠冽列劣劽咧埓姴巤挒捩擸洌浖烈烮煭犣猎獵睙聗脟茢蛚蛶裂趔躐迾颲鬛鬣"),
  ("lie", "鮤鱲鴷"),
  ("lin", "㐭㔂㖁㝝㨆临亃僯凛凜厸吝壣崊嶙廩廪恡悋惏懍懔撛斴晽暽林橉檁檩淋潾澟瀶焛燐獜琳璘甐"),
  ("lin", "疄痳癛癝瞵矝碄磷箖粦粼綝繗罧翷臨菻蔺藺蹸躏躙躪轔轥辚遴邻鄰鏻閵隣霖驎鱗鳞麐麟"),
  ("ling", "㖫㡵㥄㦭㪮㬡㯪㱥䈊䉁䍅䔖䖅令伶凌刢另呤囹坽夌姈孁岭岺嶺彾拎掕昤朎柃棂櫺欞泠淩澪瀮"),
  ("ling", "灵炩燯爧狑玲琌瓴皊睖砱碐祾秢竛笭紷綾绫羚翎聆舲苓菱蓤蔆蕶蘦蛉衑袊裬詅跉軨輘酃醽鈴"),
  ("ling", "錂铃閝阾陵零霊霗霛霝靈領领駖魿鯪鲮鴒鸰鹷麢齡齢龄龗"),
  ("liu", "㐬㙀㧕六刘劉嚠坴塯媹嬼嵧廇懰旈旒柳栁桞桺榴橊橮沠流浏溜澑瀏熘珋琉瑠瑬璢畂畄留畱疁"),
  ("liu", "瘤癅硫磂綹绺罶羀翏蒥蓅藰裗蹓遛鉚鋶鎏鎦鏐鐂铆锍镏镠雡霤飀飅飗飹餾馏駠駵騮驑骝鬸鰡"),
  ("liu", "鶹鹠麍"),
  ("lo", "囖"),
  ("long", "㑝㙙㚅㛞㝫㟖㡣㢅㦕㰍㴳䮾儱咙哢嚨垄垅壟壠屸嶐巃巄徿拢挵攏昽曨朧栊梇櫳泷湰滝漋瀧爖"),
  ("long", "珑瓏癃眬矓砻硦礱礲窿竉竜笼篭簼籠聋聾胧茏蕯蘢蠪蠬衖襱豅贚躘鏧鑨陇隆隴霳靇鸗龍龒龓"),
  ("long", "龙"),
  ("lou", "㔷㟺㡞㥪㪹剅喽嘍塿娄婁屚嵝嶁廔慺搂摟楼樓漏熡甊瘺瞜篓簍耧耬艛蒌蔞蝼螻謱軁遱鏤镂陋"),
  ("lou", "鞻髅髏鷜"),
  ("lu", "㓐㔧㔪㖨㛎㛬㜙㟤㠠㠥㢚㢳㦇㪐㪖㪭㫽㭔㭚㯝㯟㯭㼾䐂䩮侓侣侶偻僂僇儢剹勎勠勴卢卤吕呂"),
  ("lu", "噜嚕嚧圥垆垏塷壚娽寽屡屢履峍嵂庐廘廬彔录律慮戮挔捛掳摝撸擄擼攎曥栌梠椂榈樐樚橹櫓"),
  ("lu", "櫖櫚櫨氀氯泸淕淥渌溇滤滷漉漊潞澛濾瀂瀘炉焒熝爈爐獹率玈琭璐璷瓐甪瘘瘻盝盧睩矑硉硵"),
  ("lu", "碌磟磠祣祿禄稆稑穋穞穭箓箻簏簶籙籚粶絽綠緑縷纑绿缕罏胪膂膐膔膟膢臚舻艣艪艫芦菉葎"),
  ("lu", "蓾蔍蕗藘蘆虂虏虑虜螰蠦褛褸觮觻謢賂赂趢路踛蹗輅轆轤轳辂辘逯郘醁鋁錄録錴鏀鏕鏴鐪鑢"),
  ("lu", "鑥鑪铝镥閭闾陆陸露顱颅馿騄騼驢驴髗魯魲鯥鱸鲁鲈鵦鵱鷺鸕鸬鹭鹵鹿麓黸"),
  ("luan", "㝈㡩㱍乱亂卵圝圞娈孌孪孿峦巒挛攣曫栾欒滦灓灤癴癵羉脔臠薍虊釠銮鑾鵉鸞鸾"),
  ("lue", "㑼㔀㗉㨼䂮圙掠撂擽略畧稤鋝鋢锊"),
  ("lun", "㖮㷍䈁仑伦侖倫囵圇埨婨崘崙惀抡掄沦淪溣碖磮稐絯綸纶耣腀菕蜦論论踚輪轮錀陯鯩"),
  ("luo", "㑩㒩㓢㞅㦬㩡㪾㰁倮儸啰嗠囉峈摞攞曪椤欏氇氌洛洜濼烙犖猡玀珞瘰癳砢硌笿箩籮絡纙络罖"),
  ("luo", "罗羅臝荦萝落蓏蔂蘿螺蠃袼裸覙覶覼躶逻邏酪鎯鏍鑼锣镙雒饠駱騾驘骆骡鮥鴼鵅鸁"),
  ("lv", "旅"),
  ("m", "呣"),
  ("ma", "㐷㑻㜫㦄㨸亇傌吗唛嗎嘛嘜妈媽嫲嬤嬷帓杩榪溤犘犸獁玛瑪痲睰码碼祃禡罵蔴蚂螞蟆蟇遤鎷"),
  ("ma", "閁馬駡马骂鰢鷌麻麿"),
  ("mai", "㜥㦟买佅劢勱卖嘪埋売眿脉荬蕒薶蝐買賣迈邁霢霾鷶麥麦鿏"),
  ("mak", "鿺"),
  ("mal", "唜"),
  ("mama", "墹壗"),
  ("man", "㒼㗈㙢㛧㡢㬅䕕僈墁姏嫚屘幔悗慢慲摱曼槾満满滿漫澫澷熳獌璊瞒瞞矕縵缦蔄蔓蛮螨蟎蠻襔"),
  ("man", "謾谩蹒蹣鏋鏝镘鞔顢颟饅馒鬗鬘鮸鰻鳗"),
  ("mang", "㝑㟌㟐㟿㡛㤶㬒㻊䈍吂哤壾娏尨忙恾掹擝杗杧氓汒浝漭牤牻狵痝盲盳硥硭笀芒茫茻莽莾蘉蛖"),
  ("mang", "蟒蠎邙釯鋩铓駹鼆"),
  ("mao", "㒵㒻㚹㝟㡌㧇㧌㪞㫯㮘兞冃冇冐卯堥夘媌媢嫹峁帽懋戼旄昴暓枆柕楙毛毷泖渵牦猫瑁皃眊瞐"),
  ("mao", "矛笷罞耄艒芼茂茅茆萺蓩蝥蟊袤覒貌貓貿贸軞鄮酕錨锚髦髳鶜"),
  ("masu", "桝"),
  ("mat", "鿹"),
  ("mate", "鮲"),
  ("matsu", "枩"),
  ("me", "么嚒癦"),
  ("mei", "㙁㭑凂呅堳塺妹媄媒媚媺嬍寐嵄嵋徾挴攗昧枚栂梅楣楳槑毎每沒没沬浼渼湄湈煝煤燘猸玫珻"),
  ("mei", "瑂痗眉眛睂睸祙禖篃美脄脢腜苺莓葿蝞袂跊郿酶鋂鎂鎇镁镅霉韎鬽魅鶥鹛黣黴"),
  ("men", "㥃㦖们們悶懑懣扪捫暪樠焖燜穈菛虋鍆钔門閅门闷"),
  ("meng", "㙹㜴㝱㠓㩚䀄䁅䑃䑅䓝儚冡勐夢夣孟幪懜懞懵曚朦梦橗檬氋溕濛猛獴瓾甍甿盟瞢矇矒礞艋艨"),
  ("meng", "苎莔萌萠蒙蕄虻蜢蝱蠓鄳鄸錳锰雺霥霿靀饛鯍鯭鸏鹲"),
  ("mi", "㜆㜷㝥㟜㠧㣆㥝㨠㫘㰽䕷侎冖冞冪咪嘧塓孊宓宻密峚幂幎幦弥弭彌戂擟攠敉榓樒檷櫁汨沵泌"),
  ("mi", "洣淧淿渳滵漞濔濗瀰灖熐爢猕獼瓕眫眯瞇祕祢秘簚籋米糜糸縻罙羃脒葞蒾蔝蔤藌蘪蘼蜜蠠覓"),
  ("mi", "覔覛觅詸謎謐谜谧迷醚醾醿釄銤镾靡鸍麊麋麛鼏"),
  ("mian", "㒙㝃㝰㤁㨺㮌㰃㻰丏偭免冕勉勔喕娩婂媔嬵宀愐棉檰櫋汅沔湎眄眠矈矊矏糆絻綿緜緬绵缅腼"),
  ("mian", "臱芇葂蝒醎面靣麪麫麵麺"),
  ("miao", "㑤㦝劰喵妙庙庿廟描杪淼渺玅眇瞄秒竗篎緢緲缈苗藐邈鱙鶓鹋"),
  ("mie", "㒝㩢乜吀咩哶孭幭懱搣櫗滅灭礣篾羋芈蔑薎蠛衊覕鑖鱴鴓"),
  ("min", "㞶㟩㟭㥸㨉㬆䪸僶冧冺刡勄垊姄岷崏忞忟怋悯愍慜憫抿捪敃敏敯旻旼暋民泯渑湣潣澠珉琘瑉"),
  ("min", "痻皿盿砇碈笢簢緍緡缗罠苠鈱錉鍲閔閩閺闵闽鰵鳘黽黾"),
  ("ming", "㝠㟰㫥䫤佲冥凕名命姳嫇慏明暝朙榠洺溟猽眀眳瞑茗蓂螟覭詺鄍酩銘铭鳴鸣"),
  ("miriguramu", "瓱"),
  ("miu", "謬谬"),
  ("mo", "㱄㱳䃺䩋万劘嗼嘿嚜嚤嚰圽塻墨妺嫫嫼寞尛帞庅怽慔懡抹抺摩摸摹擵昩暯末枺模橅歾歿殁沫"),
  ("mo", "洦湐漠瀎爅瘼皌眜眽瞙砞磨礳秣粖糢絈縸纆耱脈膜茉莈莫蓦藦蘑蛨蟔衇袹謨謩谟貃貊貘鄚銆"),
  ("mo", "鏌镆陌霡靺饃饝馍驀髍鬕魔魩麼麽默黙"),
  ("moku", "杢"),
  ("mol", "乮"),
  ("momiji", "椛"),
  ("mou", "㭌侔冒劺哞愗某洠牟眸瞀瞴繆缪蛑蟱謀谋踇踎鉾鍪鴾麰"),
  ("mu", "㜈㟂㣎㧅亩仫凩募坶墓姆姥峔幕幙恈慕拇暮木朰楘母毣毪氁沐炑牡牧牳狇獏畆畒畝畞畮目睦"),
  ("mu", "砪穆胟苜莯蚞譕鉧鉬钼雮霂鞪鶩鹜"),
  ("muro", "榁"),
  ("muroaji", "鰘"),
  ("mushiru", "挘毟毮"),
  ("mutsu", "鱫"),
  ("mwun", "匁"),
  ("mye", "旀"),
  ("myeng", "椧"),
  ("n", "㕶煾"),
  ("na", "㨥乸哪嗱妠拏拿捺笝納纳肭蒳衲袦誽豽貀軜那鈉鎿钠镎雫靹魶"),
  ("nagi", "彅"),
  ("nai", "㮈㮏䍲乃倷奈奶妳嬭廼摨柰榒氖渿熋疓耐艿萘螚褦迺釢錼鼐"),
  ("namazu", "魸"),
  ("nan", "㓓㫱㬮䈒侽南喃囡奻娚婻戁揇暔枏枬柟楠湳男畘罱腩莮萳蝻諵赧难難"),
  ("nang", "㚂乪儾嚢囊囔攮曩欜灢饢馕齉"),
  ("nao", "㑎㛴㞪䜀匘呶垴堖夒嫐峱嶩巎巙怓恼悩惱憹挠撓桡橈淖猱獶獿瑙硇碯繷脑腦詉譊鐃铙閙闹髐"),
  ("nao", "鬧"),
  ("nata", "屶"),
  ("nawa", "縄"),
  ("nay", "匂"),
  ("ne", "㕯吶呐袮訥讷"),
  ("nei", "㐻㨅內内娞氝脮腇餒馁鮾鯘"),
  ("nen", "㜛㯎㶧嫩嫰黁齳"),
  ("neng", "嬣能薴"),
  ("nerau", "躵"),
  ("ng", "嗯"),
  ("ngaak", "鈪"),
  ("ni", "㞾㠜㥾㦐㩘㪒䁥䘦䛏伱伲你倪儗儞匿呢坭埿堄妮婗嫟嬺孴尼屔屰嶷怩惄愵抳拟擬旎昵暱柅氼"),
  ("ni", "泥淣溺狋狔猊痆睨禰秜籾糑縌聣胒腻膩臡苨薿蚭蜺觬貎跜輗迡逆郳鈮鉨铌隬霓馜鯓鯢鲵鷁鷊"),
  ("ni", "鹝鹢麑齯鿭"),
  ("nian", "㞋㮟卄哖唸埝姩年廿念拈捻撚撵攆涊淰焾碾秊秥簐粘艌跈蹨躎輦辇鮎鯰鲇鲶黏鼰齞"),
  ("niang", "䖆娘嬢孃酿醸釀"),
  ("niao", "㒟㜵㞙㠡㭤嫋嬝嬲尿樢脲茑蔦袅裊褭鳥鸟"),
  ("nie", "㖏㖕㖖㘝㘨㘿㙞㚔㜸㡪㩶㮆䯀啮喦嗫噛嚙囁囓圼孼孽嵲巕帇惗捏揑摰敜枿棿槸櫱涅湼疌篞糱"),
  ("nie", "糵聂聶臬臲苶菍蘖蠥踂踗蹑躡鈢鉩錜鎳鑈鑷钀镊镍闑陧隉顳颞齧"),
  ("nin", "㤛䋻囜您拰脌"),
  ("ning", "㝕㣷佞侫倿儜凝咛嚀寍寕寗寜拧擰柠橣檸泞澝濘狞獰甯矃聍聹鑏鬡鸋"),
  ("nio", "鳰"),
  ("niou", "汼"),
  ("niu", "㖻䋴妞忸扭炄牛狃紐纽莥衂鈕钮靵"),
  ("noboru", "曻"),
  ("nong", "侬儂农哝噥弄挊檂欁浓濃癑禯秾穠脓膿蕽襛農辳醲鬞齈"),
  ("nou", "㜌㝹䅶啂槈獳羺耨譨譳鎒鐞"),
  ("noy", "脳"),
  ("nu", "㚢伮努女奴孥弩怒恧抐搙朒砮笯籹胬蒘衄釹钕駑驽鴑"),
  ("nuan", "㬉偄暖渜煖煗餪"),
  ("nuc", "莻"),
  ("nude", "橳"),
  ("nue", "疟瘧硸虐謔谑"),
  ("nukamiso", "粏"),
  ("nung", "燶"),
  ("nuo", "㐡㑚㔮㖠㛂㡅㰙傩儺娜愞懦懧挪挼捼掿搦搻梛橠砈砹稬穤糥糯諾诺蹃逽郍"),
  ("o", "筽"),
  ("obiyaakasu", "脋"),
  ("odoshi", "縅"),
  ("oki", "澚"),
  ("ol", "乯"),
  ("on", "鞰"),
  ("oozutsu", "熕"),
  ("ori", "槞"),
  ("oroshi", "颪"),
  ("otoko", "郒"),
  ("ou", "㒖䥲偶吘吽呕嘔塸怄慪櫙欧歐殴毆沤漚熰瓯甌眍瞘耦腢膒蕅藕藲謳讴鏂鴎鷗鸥齵"),
  ("pa", "啪夿妑帊帕怕杷潖爬琶皅筢耙舥葩蚆袙趴跁"),
  ("pai", "㭛俖俳哌徘拍排棑汖派湃牌篺簰簲蒎輫鎃"),
  ("pal", "浌"),
  ("pan", "㐴㢖冸判叛坢奤媻幋拚搫攀柈槃沜泮溿潘瀊炍牉畔畨盘盤盼眅砙磐磻縏聁蒰蟠袢襻詊跘鋬鎜"),
  ("pan", "鑻鞶頄頖"),
  ("pang", "㕩㥬㫄䨦乓厐厖嗙嫎庞庬彷徬旁滂炐篣耪肨胖胮膖舽蒡螃覫逄雱霶騯髈龎龐"),
  ("pao", "㘐㚿㯡匏咆垉奅庖抛拋泡炮炰爮狍疱皰砲礟礮脬袍跑軳靤鞄髱麭齙龅"),
  ("pei", "㔻㚰㟝㤄㧩㯁䊃伂佩呸啡垺培妚姵娝岯帔怌斾旆昢柸毰沛浿珮琣笩肧胚苝衃裴裵賠赔轡辔邳"),
  ("pei", "配醅阫陪陫霈馷"),
  ("pen", "㖹呠喯喷噴歕湓瓫盆翉翸葐"),
  ("peng", "㛁㠮㥊㧸䴶倗傰匉嘭埄堋塜塳弸彭怦恲憉抨挷捧掽朋梈棚椖椪樥淎淜漰澎烹甏痭皏砰硑硼碰"),
  ("peng", "磞稝竼篷纄膨芃蓬蘕蟚蟛踫軯輣錋鑝閛韸韼駍驡髬髼鬅鬔鵬鹏"),
  ("phas", "巼"),
  ("phos", "喸"),
  ("phwung", "闏"),
  ("pi", "㓟㨢㨽㮰㯅䑄䰦丕仳伾僻劈匹啤噼噽嚭圮坏坯埤壀媲嫓屁崥庀怶悂憵批披抷揊擗旇朇枇榌毗"),
  ("pi", "毘淠渒潎澼濞炋焷犤狉狓玭琵甓疋疲痞癖皮砒磇礔礕秛秠笓紕纰罴羆翍耚肶脴脾腗膍苉苤蚽"),
  ("pi", "蜱螷諀譬豼豾貔辟郫釽鈈鈚鈹鉟銔銢錍铍闢阰陴霹駓髲魾鮍鲏鴄鷿鸊鼙"),
  ("pian", "㓲㛹偏囨媥楄楩片犏篇翩胼腁萹覑諚諞谝貵賆蹁輧鍂頨駢騈騗騙骈骗骿鶣"),
  ("piao", "㬓僄剽勡嘌嫖彯徱慓摽旚殍淲漂犥瓢皫瞟票竂篻縹缥翲膘蔈薸藨蚫螵醥闝顠飃飄飘驃骠魒"),
  ("pie", "丿嫳撆撇暼氕瘪癟瞥鐅"),
  ("pin", "㡦㰋品嚬姘娦嫔嬪拼榀涄牝獱琕礗聘薲蘋貧贫頻顰频颦"),
  ("ping", "㺸㻂䈂乒俜凭凴呯坪娉屏屛帡帲幈平慿憑枰泙洴焩玶瓶甁甹砯竮箳簈缾聠胓艵苹荓萍蓱蚲蛢"),
  ("ping", "評评軿郱頩鮃鲆鵧"),
  ("po", "㗶㛘㧊㨇㰴䥽䪖叵嘙坡婆尀岶廹朴櫇泼溌潑炇烞狛珀癹皤破砶笸粕蒪蔢迫鄱酦醗醱釙鉕鏺钋"),
  ("po", "钷陂頗颇魄"),
  ("pou", "㕻㧵剖勏咅哣婄廍抔抙捊掊棓犃瓿裒錇锫"),
  ("ppwun", "兺"),
  ("pu", "㒒㬥㯷㺪䈻仆僕匍噗圃圤墣扑抪撲擈攴普曝柨樸檏毞氆浦溥潽濮瀑烳獛璞痡瞨穙箁纀舖舗菐"),
  ("pu", "菩葡蒱蒲襆襥誧諩譜谱贌蹼轐酺醭鋪鏷鐠铺镤镨陠"),
  ("pwu", "巬巭"),
  ("pyeng", "塀鋲"),
  ("qi", "㒅㓞㖢㞓㞚㟓㟚㟢㣬㥓㩩㩻㩽㫓㬤㯦㱦䄎䓅䓫䗩䚍䥓䰇七乞亓亝企倛僛其凄剘启呇呮咠唘唭"),
  ("qi", "啓啔啟嘁噐器圻埼墄墘夡奇契妻娸婍屺岂岐岓崎帺弃徛忔忯悽愭慼慽憇憩懠戚掑摖攲敧斉斊"),
  ("qi", "旂旗晵暣期杞柒栔栖桤桼棄棊棋棨棲榿槣檱櫀欺歧气気氣汔汽泣淇淒湆湇漆濝炁猉玂琦琪璂"),
  ("qi", "甈畁畦疷盀盵矵砌碁碕碛碶磎磜磧磩礘祁祈祺禥竒簯粞粸綥綦綨綮綺緀緝纃绮缉罊翗耆脐臍"),
  ("qi", "艩芑芞芪荠萁萋萕葺蕲薺藄蘄蚑蚔蚚蛴蜝蜞蟿蠐衹裿訖諆諬諿讫豈起跂踑軝迄迉邔郪鄿釮錡"),
  ("qi", "錤鏚锜闙霋頎顣颀騎騏骐骑鬐鬿魌鮨鯕鰭鲯鳍鵸鶀鶈鸂麒鼜齊齐"),
  ("qia", "㓣㓤㡊㤉匼卡圶帢恰拤掐殎洽跒酠"),
  ("qian", "㐸㗔㜞㟻㦮㦿㧄㨜㩃㩮㩷㯠䥅仟仱佥倩傔僉儙兛刋前千圱圲堑塹壍奷婜媊孯岍岒嵌嵰幵忴悓"),
  ("qian", "悭愆慊慳扦扲拑拪掔掮揵搴撁撖攐攑攓杄棈椠榩槏槧檶櫏欠欦歉歬汘汧浅淺漧潛潜濳灊燂牵"),
  ("qian", "牽瓩皘竏竓签箝篏篟簽籤粁綪縴繾缱羟羥肷膁臤芊芡茜茾葥蒨蔳虔蚈蜸褰諐謙譣譴谦谴谸輤"),
  ("qian", "迁遣遷釺鈐鉗鉛銭鋟錢鎆鏲鐱钎钤钱钳铅锓阡雂韆顩騚騫骞鬜鬝鬵鰬鵮鹐黔黚"),
  ("qiang", "㛨㩖丬傸勥呛唴嗆嗴墏墙墻嫱嬙嶈廧強强彊戕戗抢搶斨枪椌槍樯檣溬漒炝熗爿牄牆猐獇玱瑲"),
  ("qiang", "矼磢篬繈繦羌羗羫羻腔蔷薔蘠蜣謒跄蹌蹡軖錆鎗鏘鏹锖锵镪"),
  ("qiao", "㚁㚽㝯㡑㢗㤍㪣䀉䎗乔侨俏僑僺劁喬嘺墝墽峭嵪嶣巧帩幧悄愀憔撬撽敲桥樵橇橋燆犞癄瞧硗"),
  ("qiao", "硚磽礄窍竅簥繑翘翹荞蕎藮誚譙诮谯趫趬跷踍蹺蹻躈郻鄡鄥釥鍫鍬鏒鐈鐰锹陗鞒鞘鞽韒頝顦"),
  ("qiao", "骹髚髜"),
  ("qie", "㓶㗫㚗㛍㛗㤲㥦㰰䦧且切匧妾怯悏惬愜挈朅沏洯淁癿穕窃竊笡箧篋緁聺茄藒蛪踥鍥锲鯜"),
  ("qin", "㓎㘦㝲㞬㢙㤈㩒㪁㮗䈜亲侵勤厪吢吣唚嗪噙坅媇嫀寑寖寝寢寴嵚嶔庈廑懃懄抋捦揿搇撳擒斳"),
  ("qin", "昑曋檎欽沁澿瀙珡琴琹禽秦綅耹芩芹菣菦蚙螓螼蠄衾親誛赺赾鈙鈫钦靲顉駸骎鮼鳹鵭"),
  ("qing", "㯳㷫䨝倾傾凊剠勍卿啨圊夝寈庆庼廎情慶掅擎晴暒樈檠檾櫦殑殸氢氫氰汫淸清漀狅甠硘碃磘"),
  ("qing", "磬罄蜻請謦请軽輕轻郬鑋靑青靘頃顷鯖鲭"),
  ("qiong", "㑋㒌㧭㮪䅃䓖儝匔卭宆惸桏棾橩焪焭煢熍琼璚瓊睘瞏穷穹窮竆笻筇芎苘茕藑藭蛩赹跫輁邛銎"),
  ("qiou", "湭"),
  ("qiu", "㐀㕤㚱㛏㞗㟈㤹㥢㧨㭝㳋䊵䨂丘丠俅厹叴唒囚坵媝崷巯巰恘扏搝朹梂楸殏毬求汓泅浗渞煪犰"),
  ("qiu", "玌球璆皳盚秋秌穐篍糗紌絿緧肍脙艽苬莍萩蓲虬虯蚯蛷蝤蝵螑蟗蠤裘觩訄訅賕赇趥逎逑遒邱"),
  ("qiu", "酋釓釚銶钆鞦鞧鮂鯄鰌鰍鰽鱃鳅鶖鹙鼽龝"),
  ("qu", "㖆㘗㜹㠊㣄㧁㫢㭕㯫㰦䈌䋧䓛伹佉佢凵刞劬匤匷区區厺去取呿坥娶屈岖岴嶇忂憈懅戵抾敺斪"),
  ("qu", "曲朐欋氍浀淭渠湨灈璖璩痀癯瞿砠磲祛竬筁籧粬紶翑翵胊胠臞菃葋蕖蘧蛆蛐螶蟝蠷衐衢袪覰"),
  ("qu", "覷覻觑詓詘誳诎豦趋趣趨躣躯軀軥鑺镼閴闃阒阹駆駈驅驱髷魼鰸鱋鴝鶌鸜鸲麮麯麴麹黢鼁鼩"),
  ("qu", "齲龋"),
  ("quan", "㒰㒽㟫佺全券劝勧勸呟啳圈圏奆姾婘孉峑巏弮恮悛惓拳搼权棬権權汱泉洤湶烇牶牷犈犬玔琄"),
  ("quan", "瑔甽畎痊硂筌箞絟絭綣縓绻荃荈葲虇蜷蠸觠詃詮诠踡輇辁醛銓鐉铨闎顴颧駩騡鬈鰁鳈鷤齤"),
  ("que", "㕁㩁㰌㱋却卻咑埆塙墧寉崅悫愨慤搉榷殻毃灍燩琷瘸皵硞确碏確碻礐礭缺缼舭蒛趞闋闕阕阙"),
  ("que", "雀鵲鹊"),
  ("qun", "㟒㪊囷夋宭峮帬杶漘羣群蝽裙裠踆輴逡錞鰆"),
  ("ran", "㒄㚩㜣䎃䔳冄冉呥嘫姌媣染橪然燃珃繎肰苒蚒蚦蚺蛅衻袇袡襽髥髯"),
  ("rang", "䉴儴勷嚷壌壤懹攘瀼爙獽瓤禳穣穰蘘譲讓让躟鬤"),
  ("rao", "㑱娆嬈扰擾繞绕荛蕘蛲蟯襓遶隢顤饒饶"),
  ("ratsu", "溂"),
  ("re", "喏惹渃热熱"),
  ("ren", "㠴㣼㸾䇮䌾人亻仁仞仭任刃刄壬妊姙屻岃忈忍忎恁扨朲杒栠栣梕棯牣祍秂秹稔紉紝絍纫纴肕"),
  ("ren", "腍芢荏荵衽袵訒認认讱賃赁軔軠轫鈓銋靭靱韌韧飪餁饪魜鴹鵀"),
  ("reng", "㭁㺱仍扔礽芿辸陾"),
  ("ri", "囸日氜衵釰鈤馹驲"),
  ("ro", "粐"),
  ("rong", "㘇㝐㣑㭜䇯䡆傇冗媶宂容嵘嶸戎搑曧栄榕榮榵毧氄溶烿熔爃狨瑢穁絨縙绒羢肜茙茸荣蓉蝾融"),
  ("rong", "螎蠑褣軵鎔镕駥髶鰫鴧鷛"),
  ("rou", "䐓媃宍揉柔楺沑渘煣瑈瓇禸粈糅肉脜腬葇蝚蹂輮鍒鍕鞣韖騥鰇鶔"),
  ("ru", "㐵㦺㨎乳侞傉儒入嗕嚅如媷孺嶿帤挐擩曘桇汝洳渪溽濡燸筎縟缛肗臑茹蓐蕠薷袽褥襦辱邚鄏"),
  ("ru", "醹銣铷顬颥鱬鴽"),
  ("ruan", "㓴㮕䓴堧壖媆撋朊瑌瓀盶碝礝緛耎腝蝡蠕軟輭软阮"),
  ("rui", "㓹㢻㪫䄲䬐叡壡惢枘桵橤汭瑞甤睿緌繠芮蕊蕋蕤蘂蘃蚋蜹銳鋭锐"),
  ("rul", "扖"),
  ("run", "㠈橍润潤犉瞤膶閏閠闰"),
  ("ruo", "偌叒婼弱楉焫爇箬篛若蒻鄀鰙鰯鶸"),
  ("s", "恖"),
  ("sa", "㒎㚫㪪仨卅摋撒攃櫒洒灑脎萨薩趿鎝隡靸颯飒馺"),
  ("saai", "嘥"),
  ("sai", "㗷㘔㩙䈢䰄僿嗮噻塞愢揌毢穝簺腮賽赛顋鰓鳃"),
  ("sakaki", "榊"),
  ("sakenomoto", "酛"),
  ("sako", "逧"),
  ("sal", "虄"),
  ("san", "㤾㧲㪔㪚䈀三仐伞俕傘厁叁嘇壭弎攕散橵毵毶毿氵潵犙糁糂糝糣糤繖鏾閊閐饊馓鬖"),
  ("sang", "丧喪嗓峠搡桑桒槡磉褬鎟顙颡"),
  ("sao", "㛮㥰䕅喿埽嫂慅扫掃掻搔氉溞瘙矂繅缫臊艘颾騒騷骚鰠鰺鱢鳋"),
  ("sarake", "瓼"),
  ("sasara", "簓"),
  ("sasou", "哘"),
  ("sayng", "栍"),
  ("se", "㒊㥶㱇䔼啬嗇懎歮歰涩澀澁濇濏瀒瑟璱穑穡穯繬翜色譅趇轖銫铯閪雭飋"),
  ("segare", "躮"),
  ("sei", "彁"),
  ("seki", "碵"),
  ("sem", "繊"),
  ("sen", "敾曑森椮槮歚甧穼篸縇蔘襂"),
  ("senchigura", "甅"),
  ("seng", "䒏僧鬙"),
  ("sey", "笹"),
  ("sha", "㠺㰱㰼㸺䈉乷倽傻儍厦唦唼啑啥喢帴帹廈杀桬榝樧歃殺沙煞猀痧砂箑粆紗纱翣莎萐蔱裟訯鎩"),
  ("sha", "铩閯霎髿魦鮻鯊鯋鲨"),
  ("shachi", "鯱"),
  ("shai", "㩄㬠晒曬筛篩繺閷"),
  ("shaku", "癪"),
  ("shan", "㚒㣌㣣㨛㪎㪨㰑䄠䥇䱉傓僐删刪剼善墠墡姍姗嬗山幓彡扇挻掞搧摲擅晱杉檆汕潸澘灗烻煽熌"),
  ("shan", "狦珊疝睒磰禅穇笘縿繕缮羴羶脠膳舢芟苫蟮蟺衫覢訕謆譱讪贍赡赸跚軕邖鄯醦釤銏鐥钐閃闪"),
  ("shan", "陕陝陿饍騸骟鱓鱔鳝鿃"),
  ("shang", "丄上仩伤傷商墒姠尙尚慯扄晌殇殤滳漡熵蔏螪蠰觞觴謪賞贘赏銄鑜鬺"),
  ("shao", "㔤㪢䈰䔠佋劭勺卲哨娋少弰捎旓杓梢潲烧焼燒牊玿睄稍竰筲紹綤绍艄莦蕱蛸袑輎邵韶颵髾"),
  ("she", "㓭㰓䜓䬷佘厍厙奢射弽慑慴懾捨揲摂摄攝檨欇涉渉滠灄猞社舌舍蔎虵蛇蛥蠂設譇设賒賖赊赦"),
  ("she", "輋鉈鍦铊韘騇麝"),
  ("shen", "㑗㕥㚞㚨㜤㮱㰂㰮䰠什伸侁侺兟吲呻哂堔妽姺娠婶嬸审宷審屾峷弞愼慎扟抻昚柛椹氠涁深渖"),
  ("shen", "渗滲瀋燊珅甚申瘆瘎瘮眒眘瞫矤矧砷神籶籸紳绅肾胂脤腎葚葠薓蜃裑覾訠訷詵諗讅诜谂谉身"),
  ("shen", "邥鉮鋠頣頥駪魫鯵鲹鵢"),
  ("sheng", "㗂㮐㱡偗剩剰勝升呏圣墭声嵊憴斘昇晠榺殅泩湦溗焺牲狌珄琞生甡甥畻盛省眚笙箵繩绳聖聲"),
  ("sheng", "胜苼蕂譝貹賸鉎阩陞陹鱦鵿鼪"),
  ("shi", "㒾㔺㕜㖷㱁䈕䏡䤭䴓世丗乨乭亊事仕佦使侍兘兙冟势勢十卋卶叓史呞呩嗜噬埘塒士失奭妛始"),
  ("shi", "嬕实実室宩寔實尸屍屎峕崼嵵市师師式弑弒忕恃戠戺拭拾揓施时旹是昰時枾柹柿榯氏浉湁湜"),
  ("shi", "湤湿溡溮溼澨濕炻烒煶狮獅瑡眂眎睗矢石示礻祏竍竕笶筮箷簭籂絁翨舐舓莳葹蒒蒔蓍虱蚀蝕"),
  ("shi", "蝨褷襫襹視视試詩誓諟諡謚識识试诗谥豉豕貰贳軾轼逝遈適遾邿釈释釋釶鈟鈰鉂鉃鉇鉐鉽銴"),
  ("shi", "铈食飠飾餙餝饣饰駛驶鯴鯷鰣鰤鲥鲺鳀鳲鳾鶳鸤鼫鼭齛"),
  ("shibui", "渋"),
  ("shide", "椣"),
  ("shigi", "鴫"),
  ("shiira", "鱪鱰"),
  ("shikato", "聢"),
  ("shikimi", "梻"),
  ("shime", "乄"),
  ("shinshi", "籡"),
  ("shitsuke", "躾"),
  ("sho", "墸"),
  ("shou", "㖟㝊㥅㧃䛵兽収受售垨壽夀守寿手授掱收橸涭熟狩獸璹痩瘦綬绶艏荍鏉首"),
  ("shu", "㑐㒔㛸㜐㡏㣽㫹㯮㻿䉀书侸倏倐儵凁叔埱塾墅姝婌孰尌尗属屬庶庻忄恕戍抒掓摅摴攄数數暑"),
  ("shu", "曙書术束杸枢树梳樗樜樞樹橾殊殳沭淑漱潄潻澍濖瀭焂疎疏癙盨秫竖竪糬紓絉綀纾署舒荗菽"),
  ("shu", "蒁蔬薥薯藷虪蜀蠴術袕裋襡襩豎贖赎跾踈軗輸输述鉥錰鏣钃陎韣鮛鵨鶐鸀黍鼠鼡"),
  ("shua", "㕞刷唰耍誜"),
  ("shuai", "卛咰孈帅帥摔甩縗繂缞蟀衰"),
  ("shuan", "拴栓涮閂闩"),
  ("shuang", "㕠㦼䉶䗮双塽孀孇慡樉欆灀爽礵縔艭鏯雙霜騻驦骦鷞鸘鹴"),
  ("shui", "娷帨水氺涗涚睡瞓祱稅税蛻蜕裞誰谁"),
  ("shun", "㥧吮揗楯橓瞚瞬舜蕣賰順顺鬊"),
  ("shuo", "㮶哾妁揱搠朔槊欶洬烁爍獡矟硕碩芍蒴說説说鎙鑠铄"),
  ("shuu", "駲"),
  ("si", "㒋㕽㚶㟃㠼㣈㭒㴲㺨䔮丝亖伺似佀俟俬偲儩兕凘厮厶司咝嗣嘶噝四姒娰媤孠寺巳廝思撕斯杫"),
  ("si", "柶楒榹死汜泀泗泤洍涘澌瀃灬燍牭磃祀禗禠禩私竢笥簛籭絲緦纟缌罳耜肂肆蕬蕼虒蛳蜤螄蟖"),
  ("si", "蟴覗貄賜赐釲鈻鉰鋖鐁颸飔飤飼饲駟騦驷鷥鸶"),
  ("sik", "篒"),
  ("sin", "㒨噺"),
  ("sip", "辻"),
  ("so", "囎螦"),
  ("sok", "続"),
  ("soko", "椢"),
  ("sol", "乺"),
  ("soma", "杣"),
  ("song", "㞞㣝㧐㨦㩳㮸倯傱凇娀宋崧嵩嵷庺怂悚愯慫憽捒松枀柗梥楤檧淞濍硹竦耸聳菘蜙訟誦讼诵送"),
  ("song", "鍶锶頌颂餸駷鬆"),
  ("sonoko", "蔶"),
  ("sori", "艝轌"),
  ("sou", "㛐㟬䈭傁叜叟嗖嗽嗾廀廋捜搜摉摗擞擻櫢溲滫獀瘶瞍籔膄蒐蓃薮藪螋鄋醙鎪锼颼飕餿馊騪"),
  ("souke", "笽"),
  ("su", "㑉㑛㓘㔄㕖㜚㝛㢝㨞㪩㬘㯈俗傃僳嗉囌塐塑夙嫊宿愫愬憟栜榡樕橚櫯殐泝涑溯溸溹潥玊珟璛"),
  ("su", "甦碿稣穌窣簌粛粟素縤肃肅膆苏蓿蔌藗蘇蘓蜶觫訴誎謖诉谡趚速遡遬酥鋉餗驌骕鯂鱐鷫鹔"),
  ("suan", "匴狻痠祘笇筭算蒜酸"),
  ("subashiri", "鯐"),
  ("suberu", "辷"),
  ("suei", "湪"),
  ("sugi", "杦"),
  ("sui", "㒸㞸䭉亗倠哸埣夊嬘岁嵗巂攵旞檅檖歲歳毸浽滖澻濉瀡煫熣燧璲瓍眭睟睢砕碎祟禭穂穗穟綏"),
  ("sui", "繀繸绥膸芕荽荾虽襚誶譢谇賥遀遂邃鐆鐩隋随隧隨雖鞖髄髓"),
  ("sukesou", "鯳"),
  ("sukumo", "粭糘蒅"),
  ("sun", "㔼㦏孙孫愻损損搎榫槂狲猻笋筍箰簨荪蓀蕵薞鎨飧飱"),
  ("suo", "㛖㪽㮦䔋䖛傞唆唢嗍嗦嗩娑所挱挲摍摵擌暛桫梭樎洓溑琐瑣璅瘷簑簔索縮缩莏蓑褨趖蹜逤鎍"),
  ("suo", "鎖鎻鏁鏼锁"),
  ("susa", "苆"),
  ("swu", "獣"),
  ("sya", "仒"),
  ("syu", "䋡"),
  ("t", "扌"),
  ("ta", "㒓㗳㛥㣛㣵㧺㭼㯓㯚㰞㿹䂿䈋亣他嗒嚃嚺塌塔墖她它崉挞搨撻榙榻橽毾沓涾溻澾濌狧獭獺祂"),
  ("ta", "禢羍誻譶跶踏蹋蹹躂躢遝遢錔鎉鑉闒闥闧闼阘鞜鞳鮙鰨鳎龖龘鿎"),
  ("tafu", "椨"),
  ("tai", "㑷㒗㘆㙵㣍㥭㬃㸀䈚䣭儓冭台囼坮太夳嬯孡忲态態抬擡旲曃檯汰泰溙炱炲燤籉肽胎臺舦苔菭"),
  ("tai", "薹跆邰酞鈦钛颱駘骀鮐鲐"),
  ("tako", "凧"),
  ("tamo", "櫤"),
  ("tan", "㘱㛶㨏㫜䏙䞡倓傝僋叹啴嗿嘆嘽嘾坍坛坦埮墰墵壇壜婒忐怹惔憛憳憻抩探摊擹攤昙曇榃橝檀"),
  ("tan", "歎毯湠滩潭灘炭璮痰瘫癱碳禫緂罈罎膻舑舚艢菼藫袒襢覃談譚譠谈谭貚貪賧贉贪赕郯醈醓醰"),
  ("tan", "錟鐔锬镡餤驔黮"),
  ("tang", "㑽㒉㓥㙶㜍㭻䉎䞶䠀䣘伖倘偒傏傥儻劏唐啺嘡坣堂塘帑惝戃搪摚摥曭棠榶樘橖汤淌湯溏漟烫"),
  ("tang", "煻燙爣瑭矘磄禟篖糃糖糛羰耥膅膛蓎薚蝪螗螳赯趟踼蹚躺鄌醣鎕鎲鏜鐋钂铴镋镗闛隚鞺餹饄"),
  ("tang", "鶶鼞"),
  ("tani", "渓礀"),
  ("tao", "㚐㣠㫦䄻䈱䤾匋叨咷啕垰套嫍嵶弢慆掏搯桃梼槄檮洮涛淘滔濤瑫祹絛綯縚縧绦绹翢萄蜪裪討"),
  ("tao", "詜謟讨轁迯逃醄鋾錭陶鞀鞉鞱韜韬飸饀饕駣騊鼗"),
  ("tap", "畓"),
  ("tara", "樰膤"),
  ("tasuki", "襷"),
  ("tatamu", "疂"),
  ("tatsu", "燵"),
  ("tay", "垈"),
  ("tazuna", "幉"),
  ("te", "㥂㧹忑忒慝棏特蚮蟘貣鋱铽鴏"),
  ("ten", "壥鵈"),
  ("teng", "䲢儯幐滕漛疼籐籘縢腾膯蕛藤虅螣誊謄邆駦騰驣鰧鼟"),
  ("tha", "咜"),
  ("thon", "瓲"),
  ("ti", "㔸㖒㗣㡗㣢㬱㯩䏲䬫䴘䶑体俤倜偍剃剔厗啼嗁嚏嚔媂媞屉屜崹悌悐惕惖惿挮掦提揥替朑梯歒"),
  ("ti", "殢涕漽珶瑅睼碮禔禵稊籊綈緹绨缇罤荑薙蝭褅褆謕趧趯踢蹄蹏躰軆迏逖逷遆醍銻鍗鐟锑隄題"),
  ("ti", "题騠骵體髢髰鬀鬄鮷鵜鶗鶙鷈鷉鹈鼶"),
  ("tian", "㐁㖭㙉㥏㧂㬲㮇䋬䡒倎兲唺嗔塡填天婖屇忝恬悿捵掭搷晪殄沗沺淟添湉煔璳甛甜田畋畑盷睓"),
  ("tian", "窴胋腆舔菾蚕覥觍賟酟錪鍩锘闐阗靔靝靦頲颋餂鷆鷏黇鿬"),
  ("tiao", "㟘㬸㸠䟭䠷佻嬥宨岧岹庣恌挑旫晀朓条條樤眺祒祧窕窱笤粜糶絩聎脁芀苕萔蓨蜩螩覜誂趒跳"),
  ("tiao", "迢鋚鎥鞗髫鮡鰷鲦齠龆"),
  ("tie", "䴴呫帖怗萜蛈貼贴鉄銕鋨鐡鐵铁锇飻餮驖鴩"),
  ("ting", "㓅䋼䗴亭侹停厅厛听圢婷嵉庁庭廰廳廷挺朾桯梃楟榳汀涏渟烶珽町甼筳綎耓耵聤聴聼聽脡艇"),
  ("ting", "艼莛葶蜓蝏誔諪邒鋌铤閮霆鞓鯅鼮"),
  ("toan", "檲"),
  ("tochi", "杤"),
  ("todo", "魹"),
  ("toki", "鵇"),
  ("tomo", "鞆"),
  ("ton", "獤"),
  ("tong", "㛚㠉㠽㣚㤏㪌㼿䴀仝佟侗僮勭同哃嗵姛峂峒峝庝彤恫恸慟憅捅晍曈朣桐桶樋氃浵潼炵烔熥燑"),
  ("tong", "爞犝狪獞痌痛瞳砼硐秱穜童筒筩粡絧統綂统罿膧艟茼蓪蕫蘣衕詷迵通酮鉖鉵銅铜餇鮗鮦鲖鼨"),
  ("toride", "塁"),
  ("totemo", "迚"),
  ("tou", "㓱㖣㢏㪗亠偷偸匬坄头妵婾媮投斢牏紏透酘鈄鍮钭陦頭骰黈"),
  ("tsuchi", "汢"),
  ("tsugumi", "鶫"),
  ("tsuki", "欟"),
  ("tsukusu", "殱"),
  ("tsumekanmuri", "爫"),
  ("tsuraneru", "聨"),
  ("tu", "㟮㭸㻌㻬䣝兎兔凃凸吐唋図图圕圖圗土圡堍堗塗宊屠峹嵞嶀庩廜徒怢捈捸揬梌涂涋湥潳瑹痜"),
  ("tu", "瘏禿秃稌突筡腯芏荼菟葖蒤跿途酴釷鈯鋵鍎钍馟駼鵚鵵鶟鷋鷵鼵"),
  ("tuan", "㩛䝎䵎剸团団團彖慱抟摶槫湍漙煓猯畽疃糰褖貒鏄鷻黗"),
  ("tui", "㞂㞘㞜㢈㢑㥆㱣㿗䀃俀僓娧尵弚推橔煺穨腿蓷藬蘈蹆蹪退隤頹頺頽颓駾骽魋"),
  ("tun", "㖔㧷㩔㬿吞呑啍噋坉屯忳旽暾朜氽涒炖焞臀臋芚褪訰豘豚軘霕飩饨魨鲀"),
  ("tuo", "㟎䭾仛佗侂侻咃唾坨堶妥媠嫷岮庹彵托扥拓拕拖挩捝撱杔柝椭楕槖橐橢毤毻汑沰沱沲涶牠狏"),
  ("tuo", "矺砣砤碢箨籜紽脫脱萚蘀袉袥託詑讬跅跎軃迱酡阤陀陁鞁飥饦馱馲駄駝駞騨驒驝驮驼魠鮀鰖"),
  ("tuo", "鴕鵎鸵鼉鼍鼧"),
  ("twul", "乧"),
  ("ugui", "鯎"),
  ("uk", "厼"),
  ("un", "繧"),
  ("usagi", "莵"),
  ("ushihen", "牜"),
  ("utsubo", "笂"),
  ("utsuke", "躻"),
  ("uys", "夞"),
  ("wa", "㧚㰩佤劸咓哇嗗嗢娃娲婠媧屲徍挖搲攨洼淴溛漥瓦畖穵窪聉腽膃蛙袜襪邷韈韤鼃"),
  ("wai", "㖞㗏咼喎外懀歪"),
  ("waku", "枠"),
  ("wan", "㘤㜶㝴䥑䩊䯈丸仴倇刓剜卍卐埦塆壪婉完宛帵弯彎忨惋抏挽捥晚晩晼梚椀汍浣涴湾潫澣灣烷"),
  ("wan", "玩琓琬畹皖盌睌睕瞣碗紈綄綩綰纨绾翫脕腕芄莞菀萖萬蜿蟃豌貦贎踠輓鋄鋔錽鎫頑顽鯇鲩"),
  ("wang", "㓁䤑亡亾仼兦妄尢尣尩尪尫彺往徃忘忹惘旺暀望朢枉棢汪瀇王網网罒罔莣菵蚟蛧蝄誷輞辋迋"),
  ("wang", "迬魍"),
  ("wata", "絋"),
  ("wei", "㕒㖐㙎㙔㙗㛱㞇㞑㟪㠕㣦㣲㥜㦣㨊㬙㭏㮃㷉䇻䉠䲁为亹伟伪位倭偉偎偽僞儰卫危叞味唯喂喡"),
  ("wei", "喴囗囲围圍圩墛壝委威娓婔媁媙媦嬒寪尉尾屗峗峞崣崴嵔嵬嶶巍帏帷幃徫微徻惟愄愇慰捤揋"),
  ("wei", "揻斖暐未桅梶椲椳楲欈沩洈洧浘涠渨渭湋溦溾潍潿濰濻瀢炜為烓煀煒煟煨熭燰爲犚犩猥猬玮"),
  ("wei", "琟瑋畏痏痿癓矀硊硙碨磈磑維緭緯纬维罻胃腲艉芛苇苿荱菋萎葦葨葳蒍蓶蔚蔿薇薉薳藯蘤蘶"),
  ("wei", "蜲蜼蝛蝟螱衛衞褽覣覹詴諉謂讆讏诿谓贀踓躗躛軎轊违逶違鄬醀錗鍏鍡鏏闈闱隇隈隗霨霺韋"),
  ("wei", "韑韙韡韦韪頠颹餧餵骩骪骫魏鮇鮠鮪鰃鰄鲔鳂鳚"),
  ("wen", "㗃㝧㡈㬈伆刎吻呚呡問塭妏彣抆揾搵文昷桽殟汶渂温溫炆熓玟珳琝瑥璺瘒瘟瞃稳穏穩紊紋纹"),
  ("wen", "聞肳脗芠莬蚉蚊螡蟁豱輼轀辒鎾閿闅闦问闻阌雯馧馼駇魰鰛鰮鳁鳼鴍鴖鼤"),
  ("weng", "㘢㜲㮬䐥勜嗡塕奣嵡攚暡浻滃瓮甕瞈罋翁聬蓊螉鎓霐鶲鹟齆"),
  ("wo", "㠛㦱㧴㱧䰀偓卧唩喔婑嬳幄我捰捾握斡楃沃涡涹渥渦濣焥猧窝窩肟臥莴萵蒦踒齷龌"),
  ("wu", "㐅㐳㑄㒇㡔㬳㮧䨁乌五仵伍侮俉倵儛兀剭务務勿午卼吳吴吾呉呜唔啎嗚圬坞垭塢墲奦妩娒娪"),
  ("wu", "娬婺媉嫵寤屋屼岉嵍嵨巫庑廡弙忢忤怃悞悟悮憮戊扤捂摀敄无旿晤杇杌梧橆歍武毋汙汚污沕"),
  ("wu", "洖洿浯溩潕烏焐無熃物牾玝珷珸瑦璑甒痦矹碔祦禑窏窹箼粅腛膴舞芜芴茣莁蕪蘁蜈螐誈誣誤"),
  ("wu", "诬误躌迕逜遻邬郚鄔鋈鋘鋙鎢钨铻阢隖雾霚霧靰騖骛鯃鰞鴮鵐鵡鷡鹀鹉麌鼯鼿齀"),
  ("xi", "㐂㑶㔒㕧㗩㗭㘊㙾㚀㚛㛓㛫㛭㜎㞒㠄㣟㤸㦦㦻㩗㬛㭡㮩㯕㱆㱤㸍㽯㾷䁯䈪䒁䮎习係俙傒僁僖"),
  ("xi", "兮凞匸卌卥厀吸呬咥唏唽喜喺嘻噏嚊嚱囍墍壐夕奚娭媐媳嬆嬉屃屓屖屣屭嵠嶍嶲巇希席徆徙"),
  ("xi", "徯忚忥怬怷怸恄恓息悉悕惁惜憘憙戏戯戱戲扱扸捿携擕攜敼昔晞晰晳暿曦析枲桸棤椞椺榽槢"),
  ("xi", "樨橀檄欯欷歖歙氥汐洗浠淅溪滊漇漝潝潟澙烯焁焈焟焬煕熂熄熈熙熹熺熻燨爔牺犀犔犧狶獥"),
  ("xi", "玺琋璽瓗瘜皙盻睎睳瞦矖矽硒磶礂禊禧稀稧穸窸簁糦系細綌縘縰繋繥繫纚细绤羲習翕翖肸肹"),
  ("xi", "膝舃舄舾莃菥葈葸蒠蒵蓆蓰蕮薂虩蜥螅螇蟋蟢蠵衋袭裼襲西覀覡覤觋觹觽觿諰謑謵譆谿豀豨"),
  ("xi", "豯貕赥赩趘蹊蹝躧邜郄郋郤鄎酅酾醯釃釳釸錫鎎鎴鏭鑴钖锡闟阋隙隟隰隵雟霫霼飁餼饩騱騽"),
  ("xi", "驨鬩鰼鱚鳛鵗黊黖鼷齂"),
  ("xia", "㔠㗇㘡㙈㙤㰺丅下侠俠傄冾匣呷嚇夏夓峡峽懗搳敮暇柙欱炠烚煆煵狎狭狹珨瑕疜疨睱瞎硖硤"),
  ("xia", "碬磍祫笚筪縀縖罅翈舝芐蕸虲虾蝦谺赮轄辖遐鍜鎋鎼鏬閕閜陜霞颬騢魻鰕鶷黠"),
  ("xian", "㔾㘅㘋㛾㜪㡉㡾㢺㦑㦓㧥㪇㫫㬎㬗㭠㭹㮭㯗㰊㵪㾾䕔䘆䤼䥪䧟䵌仙仚伣俔僊僩僲僴先冼县咞"),
  ("xian", "咸哯唌啣嗛嘕垷奾姭娊娴娹婱嫌嫺嫻嬐孅宪尟尠屳岘峴崄嶮幰廯弦忺憪憲憸掀掺搟摻撊攇显"),
  ("xian", "晛暹杴枮橌櫶毨氙涀涎澖瀗灦烍燅燹狝猃献獫獮獻玁现珗現甉痃痫癇癎癣癬県睍瞯瞷礆礥祅"),
  ("xian", "祆禒秈筅箲籼粯糮絃絤綫線縣纎纖纤线缐羡羨羬胘腺臔臽舷苋苮莧葴蓒藓藖蘐蘚蚬蚿蛝蜆衔"),
  ("xian", "衘袨褼襳訮誢諴豏賢贒贤赻跣跹蹮躚輱轞酰銑銛銜鋧錎鍁鍌鑦铣铦锨閑閒闲限陥险陷険險霰"),
  ("xian", "韅韯韱顕顯餡馅馦鮮鱻鲜鷳鷴鷼鹇鹹麲鼸齴"),
  ("xiang", "㐮㗽㟄㟟乡享亯佭像厢向响啌嚮塂奛嶑巷庠廂忀恦想晑曏栙橡欀湘珦瓖相祥稥箱絴緗纕缃翔"),
  ("xiang", "膷芗萫葙薌蚃蟓蠁襄襐詳详象跭郷鄉鄊鄕鐌鑲镶闀闂響項项飨餉饗饟饷香驤骧鮝鯗鱌鱶鲞麘"),
  ("xiao", "㔅㕺㗛㚠㚣㤊㩋㬵㮁䕧俲傚効呺咲哓哮啋啸嘋嘐嘨嘯嘵嚣嚻囂娎婋孝宯宵小庨彇恔憢撨效敩"),
  ("xiao", "斅斆晓暁曉枭枵校梟櫹歊歗毊洨消涍潇潚瀟灱灲烋焇熽獢痚痟皢硝硣穘窙笅笑筱筿箫箾篠簘"),
  ("xiao", "簫綃绡翛肖胶膮萧萷蕭藃藠虈虓蟏蟰蠨訤誟誵謏踃逍郩酵銷销霄鞩驍骁髇魈鮹鴞鸮"),
  ("xie", "㐖㒠㓔㔎㕐㖑㖿㗨㙝㙦㙰㝍㞕㡜㢵㣯㣰㥟㦪㨙㨝㩦㩪㭨㰔㰡㱔㴽䉏些亵伳偕偰写冩劦勰协協"),
  ("xie", "卨卸叶嗋垥塮夑奊妎媟寫屑屟屧嶰廨徢恊愶慀懈拹挟挾揳搚撷擷斜斺旪暬楔榍榭歇泄泻洩渫"),
  ("xie", "澥瀉瀣灺焎熁燮燲爕猲獬疶祄禼籺糏紲絏絜絬綊緤緳纈绁缬缷翓胁脅脇脥膎葉薛薤藛蝢蟹蠍"),
  ("xie", "蠏血衸衺褉褻襭諧謝谐谢躞躠邂邪鋣鞋鞢鞵韰駴骱齘齥龤"),
  ("xin", "㐰㚯㛙㛛㜦㭄㭢䜣伈伩信俽兓卂噷囟妡嬜孞廞心忻惞攳新昕杺樳欣歆炘焮煡盺脪舋芯莘薪衅"),
  ("xin", "襑訢訫軐辛邤鄩釁鈊鋅鑫锌阠顖馨馸騂骍"),
  ("xing", "㐩㓑㓝㙚㝭㣜㨘侀倖兴刑坓型垶姓娙婞嬹幸形性悻惺擤星曐杏洐涬渻濴烆煋猩瑆皨睲硎筕篂"),
  ("xing", "緈胻腥臖興荇莕蛵行觪觲謃邢郉醒鈃鉶銒鋞鍟钘铏陉陘雽餳饧馫鮏鯹"),
  ("xiong", "㐫㚾兄兇凶匈哅夐忷恟敻汹洶焽熊胷胸訩詗詾讻诇賯赨雄"),
  ("xiou", "璓"),
  ("xiu", "㗜㱙㳜䗛休俢修咻嗅嘼岫峀庥朽樇溴烌珛琇秀糔綇綉繍繡绣羞脩臹茠蓚袖褎褏貅銝銹鎀鏅鏥"),
  ("xiu", "鏽锈饈馐髤髹鵂鸺齅"),
  ("xu", "㐨㑔㑯㕛㖅㗵㘧㜅㜿㞊㞰㥠㰲㳚䘏伵侐俆偦冔勖勗卹叙吁呴喣嘘噓垿墟壻姁婿媭嬃嬬幁序徐"),
  ("xu", "怴恤慉戌揟敍敘旭旮旯旴昫晇朂栩楈槒欨欰歔歘殈汿沀洫湑溆漵潊烅煦珝珬疞盢盱瞁瞲稰稸"),
  ("xu", "窢籲糈絮緒緖縃繻續绪续聓聟胥芧蒣蓄蕦藇藚虗虚虛蝑裇訏許訹詡諝譃许诩谞賉鄦酗醑銊鑐"),
  ("xu", "需須頊须顼驉鬚魆魖魣鱮"),
  ("xuan", "㓩㔯㔵㘣㝁㦥㧋㧦㩊㯀䁢伭佡儇吅咺喧埍塇妶媗嫙宣弲怰悬愃愋懸揎旋昍昡晅暄暅暶梋楥楦"),
  ("xuan", "檈泫渲漩潠炫烜煊玄玹琁瑄璇璿眩眴睻矎碹禤箮絢縼繏绚翧翾萱蔙蕿藼蜁蝖蠉衒誸諠諼譞讂"),
  ("xuan", "谖贙軒轩选選鉉鋗鍹鏇铉镟鞙颴駽鶱鹮"),
  ("xue", "㕰㖸㗾㞽㶅㻡乴削吙吷坹学學屵岤峃嶨斈桖泬泶澩烕燢穴茓蒆觷謞趐辥辪雤雪靴鞾鱈鳕鷽鸴"),
  ("xun", "㖊㜄㡄㢲㨚㰬㵌伨侚偱勋勛勲勳噀噚嚑坃埈埙塤壎壦奞寻尋峋巡巺巽廵徇循恂挦撏旬曛杊枔"),
  ("xun", "栒桪槆橁殉毥汛洵浔潃潯灥焄熏燖燻爋狥獯珣璕畃矄紃纁臐荀荨蔒蕁蕈薫薰蘍蟳訊訓訙詢训"),
  ("xun", "讯询賐迅迿逊遜郇醺鑂陖韗顨馴駨驯鱏鱘鲟鵔鵕"),
  ("ya", "㝞㧎㰳丫乛亚亜亞伢俹劜厊压厑厓呀哑唖啞嚈圠圧埡堐壓娅婭孲岈崕崖庌庘押挜掗揠枒桠椏"),
  ("ya", "氩氬涯漄牙犽猚猰玡痖瘂砑稏窫笌聐芽蕥蚜衙襾訝讶軋轧迓錏鐚铔雃雅鴉鴨鵶鸦鸭齖齾"),
  ("yadoru", "舎"),
  ("yagate", "軅軈"),
  ("yai", "睚"),
  ("yaji", "萢"),
  ("yama", "圸"),
  ("yamashina", "嵙"),
  ("yan", "㕣㖶㗴㘖㘙㚧㛪㢂㢛㤿㦔㫃㫟㬫㭺㮒㷳㷼䅧䇾䞛䢭䨄䳡䶮严乵俨偃偐偣傿儼兖兗剡剦匽厌厣"),
  ("yan", "厭厳厴咽唁啱喭噞嚥嚴埏堰塩墕壛壧夵奄妍妟姲姶姸娫娮婩嫣嬊嬮嬿孍宴岩崦嵃嵒嵓嶖巌巖"),
  ("yan", "巗巘巚广延弇彥彦恹愝懕懨戭扊抁掩揅揜敥昖晏暥曣曮棪椻椼楌檐檿櫩沇沿淹渰渷湺滟演漹"),
  ("yan", "灎灔灧灩炎烟焉焑焔焰焱煙熖燄燕爓牪狿猒珚琂琰甗癌盐眼研砚硏硯硽碞礹筵篶簷綖罨胭臙"),
  ("yan", "艳艶艷莚菸萒葕蔅蔫虤蜒蝘衍裺褗覎觃觾言訁詽諺讌讞讠谚谳豓豔贋贗赝躽遃郔郾鄢酀酓酽"),
  ("yan", "醃醼釅鈆閆閹閻闫阉阎阏隁隒雁顃顏顔颜餍饜騐験騴驗驠验魇魘鰋鳫鴈鴳鶠鷃鷰鹽麙麣黡黤"),
  ("yan", "黭黶鼴鼹龑"),
  ("yana", "簗"),
  ("yang", "㒕㔦㟅㦹㨾㬕䑆仰佒佯傟养劷勨咉坱垟央奍姎岟崵徉怏恙慃懩扬抰揚攁敭旸昜暘杨柍样楊様"),
  ("yang", "樣殃氧氱泱洋漾瀁炀炴烊煬玚珜瑒疡痒瘍癢眏眻礢禓秧紻羊羏羕胦蛘蝆詇諹輰鉠鍚鐊阦阳陽"),
  ("yang", "霷鞅颺飏養餋駚鰑鴦鸉鸯"),
  ("yao", "㑸㑾㔽㙘㝔㞁㟱㢓㨱㫏㫐䂚䌁䔄䙅䬙仸倄偠傜吆咬喓嗂垚堯夭妖姚婹媱宎尧尭岆峣崤崾嶢嶤"),
  ("yao", "幺徭愮抭揺搖摇暚曜杳枖柼楆榚榣殀殽淆溔滧烑熎燿爻猇猺獟珧瑤瑶眑矅穾窅窈窑窔窯窰筄"),
  ("yao", "耀肴腰舀艞苭药葯葽蓔薬藥蘨袎要覞訞謠謡讑谣趭軺轺遙遥邀銚鑰钥铫闄靿颻飖餆餚騕鰩鳐"),
  ("yao", "鷂鷕鹞鼼齩"),
  ("yari", "鑓"),
  ("yasashi", "誮"),
  ("yashinau", "羪"),
  ("ye", "㖡㗼㙒㙪㝣㡋㥷㩎㪑㱉䈎䊦业也亪亱倻偞僷冶吔啘嘢噎埜墷壄夜峫嶪嶫忦捓揶擛擨擪擫晔曄"),
  ("ye", "曅曗曵枼枽椰楪業殗殜液漜澲烨煠燁爗爷爺琊瑘璍皣瞱瞸耶蠮謁譺谒邺鄴野釾鍱鎁鎑鐷铘靥"),
  ("ye", "靨頁页餣饁馌驜鵺鸈"),
  ("yi", "㐌㐹㑊㑜㑥㓷㔴㖂㘁㘈㙠㙯㚤㚦㛄㛕㛳㜋㜒㝖㞔㠖㠯㡫㡼㢞㣇㣻㥋㥴㦉㦤㦾㫊㰘㰝㰻㱅㳑㳖"),
  ("yi", "㵩㺿䇼䌻䧧䫑䭲䱌一乁乂义乊乙亄亦亿仡以仪伇伊伿佚佾侇依俋倚偯儀億兿冝凒刈劓劮勚勩"),
  ("yi", "匇匜医吚呓呭呹咦咿唈嗌噫囈圛圯垼埶埸墿壱壹夁夷奕姨嫕嫛嬄嬑嬟宐宜宧寱寲屹峄峓崺嶧"),
  ("yi", "嶬已巸帟帠幆庡廙异弈弋弌弬彛彜彝彞役忆怈怡怿恞悒悘悥意憶懌懿扅扆扡抑抴挹捙掖掜揖"),
  ("yi", "撎攺敡斁旑旖易晲晹暆曀曎曳杙杝枍枱枻柂栘栧桋棭椅椬椸榏槷檍檥檹欭欹歋歝殔殪殹毅毉"),
  ("yi", "汉沂沶泆洂洟洢浂浥浳渏湙溢溰漪潩澺瀷炈焲熠熤熪熼燚燡燱猗獈玴珆瑿瓵異疑疫痍痬瘗瘞"),
  ("yi", "瘱癔益眤眱睪瞖矣硛礒祎禕秇移稦穓竡竩笖簃籎緆縊繄繶繹绎缢羛羠義羿翊翌翳翼肄肊肔胣"),
  ("yi", "胰腋膉臆舣艗艤艺芅苅苐苡苢萓萟蓺薏藙藝蘙虉蚁蛜蛡蛦蜴螔螘螠蟻衣衤衪袘袣袲裔裛褹襼"),
  ("yi", "觺訑訲訳詍詒詣誼謻譩譯議讉讛议译诒诣谊豙豛豷貤貽贻跇跠軼輢轙轶迆迤迻逘逸遗遺邑郼"),
  ("yi", "酏醫醳醷釔釴鈠鈶鉯銥鎰鏔鐿钇铱镒镱阣陭隿霬靾鞥頉頤顊顗顡颐飴餏饐饴饻駅驛驿骮鮧鯣"),
  ("yi", "鳦鴺鶂鶃鷖鷧鷾鸃鹥黓黟黳齮齸"),
  ("yian", "曕"),
  ("yiao", "鴁"),
  ("yie", "潱"),
  ("yin", "㐆㐺㒚㕂㖗㙬㝙㞤㡥㣧㥯㥼㦩㧈㧢㪦㱃㶏䄄䕃䲟䴦乚侌冘凐印吟唫喑噖噾嚚囙因圁垔垠垽堙"),
  ("yin", "堷夤姻婣婬寅尹峾崟崯嶾廕廴引愔慇慭憖憗懚摿斦朄栶檃檭檼櫽歅殥殷氤泿洇洕淫淾湚湮溵"),
  ("yin", "滛濥濦烎犾狺猌璌瘖瘾癊癮碒磤禋秵窨筃粌紖絪緸縯纼胤苂茚茵荫荶蒑蔩蔭蘟蚓螾蟫裀訔訚"),
  ("yin", "訡誾諲讔趛鄞酳釿鈏鈝銀銦铟银闉阥阴陰陻隂隐隠隱霒霠霪靷鞇音韽韾飮飲饮馻駰骃鮣鰥鳏"),
  ("yin", "鷣黫"),
  ("ying", "㑞㡕㢍㨕䊔䓨䣐䬬偀僌営嘤噟嚶塋婴媖媵嫈嬰嬴孆孾巆巊应廮影応愥應摬撄攍攖映暎朠桜梬"),
  ("ying", "楧楹樱櫻櫿浧渶溁溋滎滢潁潆濙濚瀅瀛瀠瀯瀴灜煐熒營瑛瑩璄璎瓔甇甖瘿癭盁盈矨硬碤礯穎"),
  ("ying", "籝籯縈纓绬缨罂罃罌膡膺英茔荥荧莹莺萤营萦萾蓥藀蘡蛍蝇蝧蝿螢蠅蠳褮覮謍譍譻賏贏赢迎"),
  ("ying", "郢鍈鎣鐛鑍锳霙鞕韺頴颍颕颖鴬鶑鶧鶯鷪鷹鸎鸚鹦鹰"),
  ("yingl", "緓"),
  ("yo", "哟唷喲"),
  ("yofune", "艠"),
  ("yong", "㐯㙲㜉㝘㞲㦷㴄㶲佣俑傛傭勇勈咏喁嗈噰埇塎墉壅嫆嫞嬫嵱庸廱彮恿悀惥愑愹慂慵拥搈擁柡"),
  ("yong", "栐槦永泳涌湧滽澭瀜灉牅用甬痈癕癰砽禜臃苚蕹蛹詠踊踴邕郺鄘醟鏞镛雍雝顒颙饔鯒鱅鲬鳙"),
  ("you", "㒡㓜㕗㕱㗀㘥㚭㛜㤑㫍㮋㰶㶭㽕䀁䍃䬀丣亴优佑侑偤優卣又友右呦唀嚘囮囿姷孧宥尤岰峟峳"),
  ("you", "幼幽庮忧怣怮悠憂懮攸斿有柚栯梄楢槱櫌櫾沋油泑浟游湵滺瀀牖牗牰犹狖猶猷由疣祐禉秞穃"),
  ("you", "糿纋羐羑耰聈肬苃莠莤莸蒏蕕蚰蚴蜏蝣訧誘诱貁輏輶迶逌逰遊邎邮郵鄾酉酭釉鈾銪铀铕駀魷"),
  ("you", "鮋鯈鱿鲉鴢麀黝鼬"),
  ("yu", "㑨㒁㒜㔱㙑㚜㚥㝢㠘㠨㡰㣃㤢㤤㥔㥚㥥㦛㦽㧒㪀㬂㬰㺄㽣䈅䋭䍂䐳䘻䰻䲣与予于亏亐伃伛余"),
  ("yu", "俁俞俣俼偊傴兪哊唹喅喐喩喻噊噢噳圄圉圫域堉堣堬墺妤妪娛娯娱媀嫗嬩宇寓寙屿峪峿崳嵎"),
  ("yu", "嵛嶎嶼庽庾彧御忬悆悇惐愈愉愚慾懙戫扜扵揄敔斔斞於旟昱杅桙棛棜棫楀楡楰榆櫲欎欝欤欥"),
  ("yu", "欲歈歟歶毓毹毺汩浴淢淤淯渔渝湡滪漁澞澦灪焴煜燏燠爩狱狳獄獝玉玗玙琙瑀瑜璵畬畭畲瘀"),
  ("yu", "瘉瘐癒盂盓睮矞砡硢硲礇礖礜祤禦禹禺秗稢稶穥穻窊窬窳竽箊篽籅籞紆緎緰繘纡罭羭羽聥聿"),
  ("yu", "肀育腧腴臾舁舆與艅艈芋芌茟茰萭萮萸蒮蓣蓹蕍蕷薁蘌蘛虞虶蜟蜮蝓螤螸衧裕褕覦觎誉語諛"),
  ("yu", "諭謣譽语谀谕豫貐踰軉輍輿轝迂迃逳逾遇遹邘郁鄃鄅酑醧釪鈺銉鋊錥鍝鐭钰閾阈陓隃隅隩雓"),
  ("yu", "雨雩霱預预飫餘饇饫馀馭騟驈驭骬髃鬰鬱鬻魊魚鮽鰅鱼鳿鴥鴪鵌鵒鷠鷸鸆鸒鹆鹬黦齬龉龥"),
  ("yuan", "㟶㠾㤪㥐㥳㭇㾓䡝䥉䲮䳣傆元円冤剈原厡厵员員噮囦园圆圎園圓圜垣塬夗妧妴媛媴嫄嬽寃岏"),
  ("yuan", "怨悁惌愿掾援杬棩榞榬橼櫞沅淵渁渆渊渕湲源溒灁爰猨猭猿獂瑗眢禐笎箢緣縁缘羱肙芫苑茒"),
  ("yuan", "萲葾蒝蒬薗蚖蜎蜵蝝蝯螈衏袁裫裷褑褤謜貟贠轅辕远逺遠邍邧鋺鎱院願駌騵魭鳶鴛鵷鶢鶰鸢"),
  ("yuan", "鸳鹓黿鼋鼘鼝"),
  ("yue", "㜧㜰㬦㰛䆕䡇䤦刖哕噦妜岄岳嶽恱悅悦戉抈捳曰曱月枂樾泧瀹爚狘玥礿禴箹篗籆籥籰粤粵約"),
  ("yue", "约蘥蚎蚏越跀跃躍軏鈅鉞钺閱閲阅鸑鸙龠"),
  ("yuki", "裄"),
  ("yun", "㚃㚺㛣㜏㞌㟦㩈䤞䲰云傊允勻匀喗囩夽奫妘孕恽惲愠愪慍抎抣昀晕暈枟榅榲橒殒殞氲氳沄涢"),
  ("yun", "溳澐煴熅熉熨狁玧畇眃磒秐筠筼篔紜緷緼縕縜纭缊耘耺腪芸荺蒀蒕蒷蕓蕰蕴薀藴蘊蝹褞賱贇"),
  ("yun", "赟輑运運郓郧鄆鄖酝醖醞鈗鋆阭陨隕雲霣韞韫韵韻饂鶤"),
  ("yuri", "岼"),
  ("yuru", "閖"),
  ("z", "鰦"),
  ("za", "㦫偺匝咂囐嶻帀抸杂沞砸磼蓙襍迊鉔雑雜雥韴魳鮺鲝"),
  ("zai", "䏁侢傤儎再哉在宰崽扗栽渽災灾烖縡賳載载酨"),
  ("zan", "㔆㜺㟛㣅㳫䭕倃儧儹兂咱喒噆囋寁拶撍攅攒攢昝暂暫桚欑沯濽灒瓉瓒瓚礸禶穳簪簮糌襸讃讚"),
  ("zan", "賛贊赞趱趲鄼酂酇錾鏨鐕"),
  ("zang", "㘸㮜匨塟奘弉牂羘脏臓臜臟臢臧葬蔵賍賘贓贜赃銺駔驵髒鿇"),
  ("zao", "㡟㯾傮凿唕唣噪慥早枣栆梍棗澡灶燥璪皁皂竃竈糟繰缲艁薻藻蚤譟趮蹧躁造遭醩鑿髞"),
  ("ze", "㖽㟙㣱䕪仄则則啧嘖夨崱帻幘庂択择捑擇昃昗汄沢泽溭澤皟瞔稄笮箦簀耫舴荝萴蠈蠌諎謮責"),
  ("ze", "賾责赜迮鰂鲗"),
  ("zei", "戝賊贼鱡"),
  ("zen", "怎譖譛谮"),
  ("zeng", "䎖増增憎橧熷璔甑矰磳繒缯罾譄贈赠驓"),
  ("zeoi", "龨"),
  ("zha", "㗬㡸㦋㱜䃎䕢乍偧剳劄厏吒咋咤哳喳奓宱扎抯挓揸搾摣札柤柵栅楂榨樝渣溠灹炸牐猹甴皶皻"),
  ("zha", "眨砟箚簎紥紮膪苲蚱蚻蜡蠿觰詐譗诈醡鍘铡閘闸霅鮓鲊齄齇"),
  ("zhai", "㒀㡯㩟䔝债債宅寨捚摘斋斎榸瘵砦礋窄鉙飵齋"),
  ("zhan", "㜊㞡㟞㠭㣶㮵䁪佔偡占厃嫸展崭嶃嶄嶘嶦战戦戰拃搌斩斬旃旜栈栴桟棧椫椾榐樿橏毡氈氊沾"),
  ("zhan", "湛琖皽盏盞瞻站綻绽菚薝蘸虥虦覘覱觇詀詹譫讝谵趈蹍蹔輚輾轏辗邅醆鉆霑顫颤颭飐飦饘驙"),
  ("zhan", "魙鱣鳣鸇鹯"),
  ("zhang", "㙣丈仉仗傽墇嫜嶂帐帳幛幥张張彰慞扙掌暲杖樟涨涱漲漳獐璋痮瘬瘴瞕礃章粀粻緔绱胀脹蔁"),
  ("zhang", "蟑賬账遧鄣鏱障鞝餦騿鱆麞"),
  ("zhao", "㑿㕚㡽䈃䈇䍮兆召垗妱巶找招旐昭曌朝枛柖櫂沼炤照燳狣瑵盄着瞾窼笊箌罀罩羄肁肇肈菬詔"),
  ("zhao", "诏赵趙釗鉊鍣钊雿駋鵫"),
  ("zhe", "㞏㡇㢎㪿㭙㭯㯙㯰䇽䗪䠦乇乽厇哲啠啫喆嗻嚞埑嫬悊折摺晢晣柘檡歽浙烢瓋砓磔禇籷者耴蔗"),
  ("zhe", "虴蜇螫蟅褶襵詟謫謺讁讋讘谪赭踷輒輙辄这這遮銸鮿鷓鸅鹧"),
  ("zhen", "㐱㓄㖘㘰㣀㪛㮳㯢䊶䟴䪴侦侲偵圳堻塦媜嫃寊帪弫抌抮挋振揁揕搸敒敶斟昣晸朕枕栕栚桢桭"),
  ("zhen", "楨榛樼殝溱潧獉珍珎瑊瑱甄畛疹眕眞真眹砧碪磌祯禎禛稹笉箴籈紾絼縝縥缜聄胗臻蒖蒧蓁薽"),
  ("zhen", "蜄袗裖診誫诊貞賑贞赈軫轃轸辴遉酙針鉁鋴錱鍼鎭鎮针镇阵陣震靕駗鬒鱵鴆鸩黰"),
  ("zheng", "㡠㡧㬹㱏䂻䈣䥭争佂埩姃峥崝崢帧幀征徰徴徵怔愸抍拯挣掙掟撜政整正氶炡烝爭狰猙症癥眐"),
  ("zheng", "睁睜筝箏篜糽聇脀蒸証諍證证诤踭郑鄭鉦鋥錚鏳钲铮锃鬇鴊"),
  ("zhi", "㕄㗌㗧㘉㙷㛿㜱㜼㝂㡳㡶㣥㥀㨁㨖㩼㫑㮹㯄䇛䉅䎺䐭䤠之侄俧値值偫傂儨制劕劧卮厎厔只吱"),
  ("zhi", "咫址坁坧垁埴執墌夂妷姪娡嬂寘峙崻巵帋帙帜幟庢庤彘徏徔徝志忮恉慹憄懥懫执扺抧挃指挚"),
  ("zhi", "掷搘搱摭摯擲擿支旘旨晊智枝枳柣栀栺桎梔梽植椥楖榰樴櫍止殖汁汥沚治洔洷淛淽滍滞滯漐"),
  ("zhi", "潌炙熫犆狾猂猘璏瓆瓡畤疐疧疻痔痣直知砋礩祇祉祑祗祬禃秓秖秩秪秲秷稙稚稺穉窒筫紙紩"),
  ("zhi", "絷綕緻縶織纸织置翐聀职職肢胑胝胵脂腟膣膱至致臸芖芝芷藢蘵蛭蛰蜘螲蟄蟙衼袟袠製褁襧"),
  ("zhi", "覟觗觯觶訨誌豑豒豸貭質贄质贽趾跖跱踬踯蹠躑躓軄軹輊轵轾迣郅酯釞銍鋕鑕铚锧阯陟隻雉"),
  ("zhi", "馶馽駤騭騺驇骘鯯鳷鴙鴟鴲鵄鷙鸱鸷黹鼅"),
  ("zhong", "㣫䇗中乑仲伀众偅冢刣喠堹塚妐妕媑尰幒彸忠忪柊歱汷泈湩潨炂煄狆盅眾祌種筗籦終緟终肿"),
  ("zhong", "腫舯茽蔠蚛螽衆衳衶衷諥踵蹱重鈡銿鍾鐘钟锺鴤"),
  ("zhou", "㑇㑳㔌㛩㤘㥮㨄㫶䓟伷侜僽冑周呪咒咮啁喌噣妯宙州帚徟昼晝晭洀洲淍炿烐珘甃疛皱皺盩睭"),
  ("zhou", "矪箒籀籒籕粙粥紂縐繇纣绉肘胄脽舟荮菷葤詋譸诪賙赒軸輈輖轴辀週郮酎銂駎騆鯞鵃鸼"),
  ("zhu", "㑏㔉㝉㤖㦵㧣㫂䇠䝬丶主伫佇住侏劚助劯嘱囑坾壴孎宁宔寧嵀拄斸朮朱杼柱柷株槠樦橥櫧櫫"),
  ("zhu", "欘殶注洙渚潴濐瀦灟炢炷烛煑煮燭爥猪珠疰瘃眝瞩矚砫硃祝祩秼窋竚竹竺笁笜筑筯箸築篫篴"),
  ("zhu", "紵紸絑纻罜羜翥舳苧茱茿莇著蓫蛀蛛蝫蠋蠩蠾袾註詝誅諔諸诛诸豬貯贮趉跓跦躅軴逐邾鉒銖"),
  ("zhu", "鋳鑄铢铸陼飳馵駐駯驻鮢鯺鱁鴸麆麈鼄"),
  ("zhua", "抓挝撾檛爪膼髽"),
  ("zhuai", "拽跩"),
  ("zhuan", "䏝䡱专僎叀啭囀堟塼嫥孨専專撰灷瑑瑼甎砖磗磚竱篆篹篿籑縳耑腞膞蒃蟤襈譔賺贃赚跧転轉"),
  ("zhuan", "转鄟顓颛饌馔鱄鷒"),
  ("zhuang", "壮壯壵妆妝娤庄庒撞桩梉樁焋状狀粧糚荘莊装裝"),
  ("zhuen", "凖"),
  ("zhui", "㗓㩾㮅坠墜娺惴桘椎沝甀硾礈窡笍綴縋缀缒膇諈譵贅赘追錐鑆锥隹餟騅骓鴭鵻鵽"),
  ("zhun", "㡒准埻宒棆準稕窀綧肫衠諄谆迍隼鶽"),
  ("zhung", "瘇"),
  ("zhuo", "㑁㒂㓸㣿㧳㧻㭬䅵䐁䓬䦃䮓丵倬剢劅卓叕啄啅圴妰彴拙捉撯擆擢斀斫斮斱斲斵晫桌梲棁棳棹"),
  ("zhuo", "椓槕櫡汋泎浊浞涿濁濯灂灼炪烵焯琢琸硺禚穛穱窧篧籗籱絀绌罬茁蠗諑謶诼踔酌鋜錣鐯鐲镯"),
  ("zhuo", "鷟"),
  ("zi", "㜽㞨㠿㧗㧘㰣㰷㱴㺭仔倳兹剚吇呰呲咨啙嗞姉姊姕姿子孖字孜孳孶崰嵫恣扻杍栥梓椔榟淄渍"),
  ("zi", "湽滋滓漬澬牸玆甾眥眦矷禌秄秭秶稵笫籽粢紎紫緇缁耔胏胔胾自芓茈茊茡茲荢菑葘虸訾訿諮"),
  ("zi", "谘貲資赀资趦輜輺辎鄑釨鈭錙鍿鎡锱镃頾頿髭鯔鲻鴜鶅鶿鷀鹚鼒齍齜龇鿊"),
  ("zoeng", "㯑"),
  ("zong", "㙡㚇㢔㣭㨑㯶㷓䁓䈦倊倧偬傯堫宗嵏嵕嵸总惣惾愡捴揔搃摠昮朡棕椶潈熜熧猔猣疭瘲碂磫稯"),
  ("zong", "粽糉糭綜緃総緵縂縦縱總纵综翪腙艐葼蓗蝬豵踨踪蹤鑁騌騣骔鬃鬉鬷鯮鯼"),
  ("zou", "㔿㵵奏媰掫揍棷棸箃緅菆諏謅诌诹走赱邹郰鄒鄹陬騶驟驺骤鯫鲰黀齱齺"),
  ("zu", "㞺㰵䔃俎卆卒哫崒崪捽族爼珇祖租稡組组蒩詛诅足踤踿蹵鎐鏃镞阻靻"),
  ("zuan", "揝攥籫繤纂纉纘缵躜躦鑚鑽钻饡"),
  ("zui", "㝡㠑㭰㰎厜嘴噿嶉嶊嶵晬最栬槜樶檇檌洅濢璻祽絊纗罪羧脧蕞蟕襊觜辠酔酻醉鋷錊"),
  ("zun", "䔿僔噂壿尊嶟捘撙樽燇繜罇譐遵銌鐏鱒鳟鷷"),
  ("zung", "㘒"),
  ("zuo", "㑅㘀㘴㝾㤰㭮佐作侳做咗唑唨嘬坐夎岝岞左座怍昨柞椊毑祚秨稓筰糳繓胙葃葄袏酢鈼阼"),
  ("zusa", "橲")]

/-- The code point of the first Han character, which opens the block of rarer
ones. -/
def hanFirst : Nat := 0x3400

/-- How many code points there are from the first Han character on to the end
of their main block. -/
def hanCount : Nat := 0x6C00

/-- Enters the reading of one character. -/
def enterReading (reading : List Char) (readings : Array (List Char)) (c : Char) :
    Array (List Char) :=
  readings.setIfInBounds (c.toNat - hanFirst) reading

/-- The reading of each character of the two blocks, by its place in them. -/
def hanReadings : Array (List Char) :=
  hanSyllables.foldl
    (fun readings (syllable, characters) =>
      characters.toList.foldl (enterReading syllable.toList) readings)
    (Array.replicate hanCount [])

end OrderedStore.Text
